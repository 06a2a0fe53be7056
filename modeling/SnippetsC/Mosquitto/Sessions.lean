import SnippetsC.Mosquitto.Clients
import Mathlib.Tactic.Common

namespace SnippetsC.Mosquitto

/-! Every session of a client uses the library as it must be used, and asks the broker for what the
callbacks call for. -/

inductive Program where
  | pub
  | sub

namespace Program

def main : Program → Library → Int × List Step
  | pub => ClientPub.main
  | sub => ClientSub.main

def check : Program → LibCall
  | pub => .pubTopicCheck topic
  | sub => .subTopicCheck topic

def callbacks : Program → List Callback
  | pub => [.connect, .disconnect, .publish]
  | sub => [.connect, .disconnect, .subscribe, .message]

def handle : Program → Library → Handle → Event → List Step
  | pub => ClientPub.handle
  | sub => ClientSub.handle

theorem main_eq (p : Program) : p.main = mainWith p.check p.callbacks p.handle := by
  cases p <;> rfl

end Program

/-- How far the library and the client are: between calls of `mosquitto_lib_init` and
`mosquitto_lib_cleanup` it is `ready`, and `set` are the callbacks that a client has. -/
inductive Phase where
  | outside
  | ready
  | made (client : Handle) (set : List Callback)
  | connected (client : Handle) (set : List Callback)
  | looping (client : Handle) (set : List Callback)
  | left (client : Handle)

/-- The calls that are allowed: callbacks are set before the client connects, it loops once it is
connected, it makes requests from its callbacks only, and every client is destroyed before the
library is left. -/
def Phase.step : Phase → Step → Option Phase
  | s, .stdout _ => some s
  | s, .stderr _ => some s
  | outside, .call (.pubTopicCheck _) => some outside
  | outside, .call (.subTopicCheck _) => some outside
  | outside, .call .libInit => some ready
  | ready, .call (.new none) => some ready
  | ready, .call (.new (some client)) => some (made client [])
  | ready, .call .libCleanup => some outside
  | made client set, .call (.callbackSet c k) =>
    if c = client then some (made client (k :: set)) else none
  | made client set, .call (.connect c _ _ _ rc) =>
    if c = client then some (if rc = MOSQ_ERR_SUCCESS then connected client set else left client)
    else none
  | connected client set, .call (.loopForever c) =>
    if c = client then some (looping client set) else none
  | looping client set, .callback e =>
    if e.callback ∈ set then some (looping client set) else none
  | looping client set, .call (.publish c _ _ _ _ _) =>
    if c = client then some (looping client set) else none
  | looping client set, .call (.subscribe c _ _) =>
    if c = client then some (looping client set) else none
  | looping client set, .call (.disconnect c) =>
    if c = client then some (looping client set) else none
  | looping client _, .loopReturns _ => some (left client)
  | left client, .call (.destroy c) => if c = client then some ready else none
  | _, _ => none

/-- What a client asks for. -/
def Step.request : Step → Option LibCall
  | .call (.publish client topic len payload qos retain) =>
    some (.publish client topic len payload qos retain)
  | .call (.subscribe client sub qos) => some (.subscribe client sub qos)
  | .call (.disconnect client) => some (.disconnect client)
  | _ => none

/-- What is to be asked for in a callback: the publisher publishes whenever it has been accepted and
leaves once something is published, the subscriber subscribes whenever it has been accepted. -/
def Program.reply (client : Handle) : Program → Event → Option LibCall
  | pub, .connect rc _ _ =>
    if rc = MOSQ_ERR_SUCCESS then some (.publish client topic 2 payload 0 false) else none
  | pub, .publish _ _ => some (.disconnect client)
  | sub, .connect rc _ _ =>
    if rc = MOSQ_ERR_SUCCESS then some (.subscribe client topic 0) else none
  | _, _ => none

/-- Everything that is checked succeeds. -/
def Library.Fine (lib : Library) : Prop :=
  lib.topicCheck = MOSQ_ERR_SUCCESS ∧ lib.client.isSome ∧ lib.connect = MOSQ_ERR_SUCCESS ∧
    lib.loop = MOSQ_ERR_SUCCESS

/-- The client that enters its loop. -/
def Library.entered (lib : Library) : Option Handle :=
  if lib.topicCheck = MOSQ_ERR_SUCCESS ∧ lib.connect = MOSQ_ERR_SUCCESS then lib.client else none

section allowed

variable (p : Program) (lib : Library) (client : Handle)

/-- What a callback does is allowed in the loop. -/
theorem handle_stays (e : Event) (set : List Callback) : ∀ s ∈ p.handle lib client e,
    (Phase.looping client set).step s = some (.looping client set) := by
  cases p with
  | pub =>
    cases e with
    | connect rc answer msgId =>
      simp only [Program.handle, ClientPub.handle, ClientPub.onConnect]
      split_ifs <;> simp [Phase.step]
    | disconnect rc =>
      simp only [Program.handle, ClientPub.handle, onDisconnect]
      split_ifs <;> simp [Phase.step]
    | publish msgId answer =>
      simp only [Program.handle, ClientPub.handle, ClientPub.onPublish]
      split_ifs <;> simp [Phase.step]
    | subscribe msgId => exact List.forall_mem_nil _
    | message topic payload => exact List.forall_mem_nil _
  | sub =>
    cases e with
    | connect rc answer msgId =>
      simp only [Program.handle, ClientSub.handle, ClientSub.onConnect]
      split_ifs <;> simp [Phase.step]
    | disconnect rc =>
      simp only [Program.handle, ClientSub.handle, onDisconnect]
      split_ifs <;> simp [Phase.step]
    | publish msgId answer => exact List.forall_mem_nil _
    | subscribe msgId => simp [Program.handle, ClientSub.handle, ClientSub.onSubscribe, Phase.step]
    | message topic payload =>
      simp only [Program.handle, ClientSub.handle, ClientSub.onMessage]
      split_ifs <;> simp [Phase.step]

theorem callbacks_set (cs set : List Callback) :
    (cs.map fun c => Step.call (.callbackSet client c)).foldlM Phase.step (.made client set) =
      some (.made client (cs.reverse ++ set)) := by
  induction cs generalizing set with
  | nil => rfl
  | cons c cs ih =>
    have hset : Phase.step (.made client set) (.call (.callbackSet client c)) =
        some (.made client (c :: set)) := if_pos rfl
    rw [List.map_cons, List.foldlM_cons, hset, List.reverse_cons, List.append_assoc]
    exact ih (c :: set)

theorem check_allowed : Phase.outside.step (.call p.check) = some .outside := by
  cases p <;> rfl

theorem startup_allowed :
    (startup p.check p.callbacks lib client).foldlM Phase.step .outside =
      some (if lib.connect = MOSQ_ERR_SUCCESS then .connected client p.callbacks.reverse
        else .left client) := by
  have hmade : [Step.call p.check, .call .libInit, .call (.new (some client))].foldlM
      Phase.step .outside = some (.made client []) := by
    rw [List.foldlM_cons, check_allowed]
    rfl
  have hset := callbacks_set client p.callbacks []
  rw [List.append_nil] at hset
  rw [startup, List.append_assoc, foldlM_through hmade, foldlM_through hset, List.foldlM_cons,
    Phase.step, if_pos rfl]
  rfl

/-- The loop, whatever happens in it. -/
theorem loop_allowed : (loop p.callbacks p.handle lib client).foldlM Phase.step
    (.connected client p.callbacks.reverse) = some (.left client) := by
  have hloop : Phase.step (.connected client p.callbacks.reverse) (.call (.loopForever client)) =
      some (.looping client p.callbacks.reverse) := if_pos rfl
  have hevents : ((lib.events.filter fun e => e.callback ∈ p.callbacks).flatMap fun e =>
      .callback e :: p.handle lib client e).foldlM Phase.step
        (.looping client p.callbacks.reverse) = some (.looping client p.callbacks.reverse) := by
    apply foldlM_stays
    intro s hs
    obtain ⟨e, he, hs⟩ := List.mem_flatMap.mp hs
    rcases List.mem_cons.mp hs with rfl | hs
    · have hset : e.callback ∈ p.callbacks := by simpa using (List.mem_filter.mp he).2
      exact if_pos (List.mem_reverse.mpr hset)
    · exact handle_stays p lib client e _ s hs
  rw [loop, List.foldlM_cons, hloop]
  exact foldlM_through hevents

theorem cleanup_allowed :
    (cleanup client).foldlM Phase.step (.left client) = some .outside := by
  rw [cleanup, List.foldlM_cons, Phase.step, if_pos rfl]
  rfl

end allowed

/-- Every step is allowed where it is taken, and the library is left. -/
theorem main_allowed (p : Program) (lib : Library) :
    (p.main lib).2.foldlM Phase.step .outside = some .outside := by
  rw [p.main_eq, mainWith]
  by_cases hcheck : lib.topicCheck ≠ MOSQ_ERR_SUCCESS
  · rw [if_pos hcheck, List.foldlM_cons, check_allowed]
    rfl
  · rw [if_neg hcheck]
    cases hclient : lib.client with
    | none =>
      simp only
      rw [List.foldlM_cons, check_allowed]
      rfl
    | some client =>
      have hstart := startup_allowed p lib client
      by_cases hconnect : lib.connect = MOSQ_ERR_SUCCESS
      · simp only [hconnect, ne_eq, not_true_eq_false, if_false]
        rw [if_pos hconnect] at hstart
        rw [foldlM_through hstart, foldlM_through (loop_allowed p lib client)]
        split_ifs
        · exact cleanup_allowed client
        · exact cleanup_allowed client
      · simp only [ne_eq, hconnect, not_false_eq_true, if_true]
        rw [if_neg hconnect] at hstart
        rw [foldlM_through hstart]
        exact cleanup_allowed client

/-- The exit code is 0 only if everything has gone well. -/
theorem code_eq_zero_iff (p : Program) (lib : Library) : (p.main lib).1 = 0 ↔ lib.Fine := by
  rw [p.main_eq, mainWith, Library.Fine]
  by_cases hcheck : lib.topicCheck = MOSQ_ERR_SUCCESS
  · rw [if_neg (not_not.mpr hcheck)]
    cases hclient : lib.client with
    | none => simp
    | some client =>
      by_cases hconnect : lib.connect = MOSQ_ERR_SUCCESS
      · have hzero : MOSQ_ERR_SUCCESS = 0 := rfl
        simp [hcheck, hconnect, hzero]
      · simp only [ne_eq, hconnect, not_false_eq_true, if_true]
        exact iff_of_false hconnect fun h => h.2.2.1
  · rw [if_pos hcheck]
    exact iff_of_false hcheck fun h => hcheck h.1

section requests

variable (p : Program) (lib : Library) (client : Handle)

theorem payloadLen_eq : ClientPub.payloadLen = 2 := by decide

theorem handle_requests (e : Event) :
    (p.handle lib client e).filterMap Step.request = (p.reply client e).toList := by
  cases p with
  | pub =>
    cases e with
    | connect rc answer msgId =>
      simp only [Program.handle, ClientPub.handle, ClientPub.onConnect, Program.reply,
        payloadLen_eq]
      by_cases hrc : rc = MOSQ_ERR_SUCCESS
      · rw [if_neg (not_not.mpr hrc), if_pos hrc]
        split_ifs
        · rfl
        · rfl
      · rw [if_pos hrc, if_neg hrc]
        rfl
    | disconnect rc =>
      simp only [Program.handle, ClientPub.handle, onDisconnect]
      split_ifs
      · rfl
      · rfl
    | publish msgId answer =>
      simp only [Program.handle, ClientPub.handle, ClientPub.onPublish]
      split_ifs
      · rfl
      · rfl
    | subscribe msgId => rfl
    | message topic payload => rfl
  | sub =>
    cases e with
    | connect rc answer msgId =>
      simp only [Program.handle, ClientSub.handle, ClientSub.onConnect, Program.reply]
      by_cases hrc : rc = MOSQ_ERR_SUCCESS
      · rw [if_neg (not_not.mpr hrc), if_pos hrc]
        split_ifs
        · rfl
        · rfl
      · rw [if_pos hrc, if_neg hrc]
        rfl
    | disconnect rc =>
      simp only [Program.handle, ClientSub.handle, onDisconnect]
      split_ifs
      · rfl
      · rfl
    | publish msgId answer => rfl
    | subscribe msgId => rfl
    | message topic payload =>
      simp only [Program.handle, ClientSub.handle, ClientSub.onMessage]
      split_ifs
      · rfl
      · rfl

/-- A callback that is not set would have nothing to ask for. -/
theorem reply_none {e : Event} (h : e.callback ∉ p.callbacks) : p.reply client e = none := by
  cases p with
  | pub => cases e <;> simp_all [Program.callbacks, Event.callback, Program.reply]
  | sub => cases e <;> simp_all [Program.callbacks, Event.callback, Program.reply]

theorem events_requests (es : List Event) :
    (((es.filter fun e => e.callback ∈ p.callbacks).flatMap fun e =>
      .callback e :: p.handle lib client e).filterMap Step.request) =
        es.filterMap (p.reply client) := by
  induction es with
  | nil => rfl
  | cons e es ih =>
    by_cases hset : e.callback ∈ p.callbacks
    · rw [List.filter_cons_of_pos (by simpa using hset), List.flatMap_cons, List.filterMap_append,
        ih, List.filterMap_cons_none rfl, handle_requests]
      cases hreply : p.reply client e with
      | none => rw [List.filterMap_cons_none hreply, Option.toList_none, List.nil_append]
      | some c =>
        rw [List.filterMap_cons_some hreply, Option.toList_some, List.singleton_append]
    · rw [List.filter_cons_of_neg (by simpa using hset), ih,
        List.filterMap_cons_none (reply_none p client hset)]

theorem check_request : (Step.call p.check).request = none := by
  cases p <;> rfl

theorem startup_requests (cs : List Callback) :
    (startup p.check cs lib client).filterMap Step.request = [] := by
  have hset : (cs.map fun c => Step.call (.callbackSet client c)).filterMap Step.request = [] := by
    rw [List.filterMap_map]
    exact List.filterMap_eq_nil_iff.mpr fun _ _ => rfl
  rw [startup, List.filterMap_append, List.filterMap_append, hset,
    List.filterMap_cons_none (check_request p)]
  rfl

theorem loop_requests : (loop p.callbacks p.handle lib client).filterMap Step.request =
    lib.events.filterMap (p.reply client) := by
  rw [loop, List.filterMap_cons_none rfl, List.filterMap_append, events_requests]
  exact List.append_nil _

end requests

theorem main_requests (p : Program) (lib : Library) :
    (p.main lib).2.filterMap Step.request =
      lib.entered.elim [] fun client => lib.events.filterMap (p.reply client) := by
  rw [p.main_eq, mainWith]
  by_cases hcheck : lib.topicCheck = MOSQ_ERR_SUCCESS
  · rw [if_neg (not_not.mpr hcheck)]
    cases hclient : lib.client with
    | none =>
      have hentered : lib.entered = none := by simp [Library.entered, hclient]
      simp only
      rw [List.filterMap_cons_none (check_request p), hentered]
      rfl
    | some client =>
      have hstart := startup_requests p lib client p.callbacks
      by_cases hconnect : lib.connect = MOSQ_ERR_SUCCESS
      · have hentered : lib.entered = some client := by
          simp [Library.entered, hclient, hcheck, hconnect]
        simp only [ne_eq, hconnect, not_true_eq_false, if_false]
        rw [List.filterMap_append, hstart, List.filterMap_append, loop_requests, hentered]
        split_ifs
        · exact List.append_nil _
        · exact List.append_nil _
      · have hentered : lib.entered = none := by simp [Library.entered, hconnect]
        simp only [ne_eq, hconnect, not_false_eq_true, if_true]
        rw [List.filterMap_append, hstart, hentered]
        rfl
  · have hentered : lib.entered = none := by simp [Library.entered, hcheck]
    rw [if_pos hcheck, hentered]
    simp only
    rw [List.filterMap_cons_none (check_request p)]
    rfl

/-- In every session of either client, whatever the library answers and calls back, each step is
allowed where it is taken and in the end the library is left with no client; the exit code is 0
exactly if nothing has failed; and the client asks for what its callbacks call for, once for each of
them and in their order. -/
theorem session_sound (p : Program) (lib : Library) :
    let run := p.main lib
    run.2.foldlM Phase.step .outside = some .outside ∧ (run.1 = 0 ↔ lib.Fine) ∧
      run.2.filterMap Step.request =
        lib.entered.elim [] fun client => lib.events.filterMap (p.reply client) :=
  ⟨main_allowed p lib, code_eq_zero_iff p lib, main_requests p lib⟩

end SnippetsC.Mosquitto
