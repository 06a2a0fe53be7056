import SnippetsC.Netlink.ListenerText

namespace SnippetsC.Netlink

open Attr (encodeAll)

/-! What the event listeners print for any number of datagrams. -/

namespace Watcher

/-- The types for which `parse_rta` prints anything. -/
def Shows : Watcher → Nat → Prop
  | ifEvents false, type => type ∈ linkTypes
  | ifFlags _, _ => False
  | ifStats, type => type ∈ [IFLA_IFNAME, IFLA_STATS64, IFLA_STATS]
  | _, _ => True

instance : (w : Watcher) → (type : Nat) → Decidable (w.Shows type)
  | ifAddrs, _ => isTrue trivial
  | ifEvents false, type => inferInstanceAs (Decidable (type ∈ linkTypes))
  | ifEvents true, _ => isTrue trivial
  | ifFlags _, _ => isFalse id
  | ifRtas, _ => isTrue trivial
  | ifStats, type => inferInstanceAs (Decidable (type ∈ [IFLA_IFNAME, IFLA_STATS64, IFLA_STATS]))

/-- The addresses behind a message at `p` at which its attribute loop goes on: its length counts 16
bytes too many. -/
def strays (w : Watcher) (m : Mem) (p : Nat) (x : Message) : List Nat :=
  if (w.walksBehind x.type).isSome then rtaFormat.walk m (p + x.size) (16 - x.uncounted) else []

/-- Nothing is shown of what the loops find behind the messages. -/
def Clean (w : Watcher) (m : Mem) : Nat → List Message → Prop
  | _, [] => True
  | p, x :: xs => x.wire.Stops ∨
      ((∀ q ∈ w.strays m p x, ¬w.Shows (rtaType m q)) ∧ w.Clean m (p + x.size) xs)

/-- The same for the datagrams that are received; the buffer of call `i` held `stale i` before. -/
def RunClean (w : Watcher) (stale : Nat → Mem) : List Datagram → Prop
  | [] => True
  | d :: ds => w.Clean ((stale 0).write 0 d.bytes) 0 d.msgs ∧
      (Fails (d.msgs.map Message.wire) ∨ w.RunClean (fun i => stale (i + 1)) ds)

/-- What the messages of the datagrams are to be shown as: those in front of the end of their
datagram, until there is an error. -/
def text (w : Watcher) : List Datagram → String
  | [] => ""
  | d :: ds => String.join ((d.msgs.takeWhile fun x => decide ¬x.wire.Stops).map w.messageText) ++
      if Fails (d.msgs.map Message.wire) then "" else w.text ds

/-- What is printed in one step; `room` is how far the stack goes on behind a string. -/
def eventOutput (w : Watcher) (room : Nat) (m : Mem) : Event → Option String
  | .parseMessage _ => some ""
  | .parseRta rta _ => Effect.output m room (w.parseRta m rta)
  | .print text => some text

def shown (w : Watcher) (room : Nat) (m : Mem) : List Event → Option String
  | [] => some ""
  | e :: es => (w.eventOutput room m e).bind fun s => (w.shown room m es).map (s ++ ·)

/-- The output of `read_messages`, if every string that is printed has an end. -/
def output (w : Watcher) (room : Nat) : List (Mem × Int) → Option String
  | [] => some ""
  | r :: rs =>
    let (code, events) := w.readMessage r.1 r.2
    (w.shown room r.1 events).bind fun text =>
      if code = 0 then (w.output room rs).map (text ++ ·) else some text

/-! What is shown is put together from what the events show. -/

variable (w : Watcher) (room : Nat) (m : Mem)

theorem shown_append (es fs : List Event) : w.shown room m (es ++ fs) =
    (w.shown room m es).bind fun s => (w.shown room m fs).map (s ++ ·) := by
  induction es with
  | nil => cases h : w.shown room m fs <;> simp [shown, h]
  | cons e es ih =>
    rw [List.cons_append, shown, shown, ih]
    cases w.eventOutput room m e with
    | none => rfl
    | some first =>
      cases w.shown room m es with
      | none => rfl
      | some rest => cases w.shown room m fs <;> simp [String.append_assoc]

theorem shown_parseMessage (x : Nlmsg) (es : List Event) :
    w.shown room m (.parseMessage x :: es) = w.shown room m es := by
  cases h : w.shown room m es <;> simp [shown, eventOutput, h]

theorem shown_print (text : String) (es : List Event) :
    w.shown room m (.print text :: es) = (w.shown room m es).map (text ++ ·) := rfl

theorem shown_prints (es : List Event) (h : ∀ e ∈ es, ∃ text, e = .print text) :
    w.shown room m es = some (String.join (es.map Event.text)) := by
  induction es with
  | nil => rfl
  | cons e es ih =>
    rw [List.forall_mem_cons] at h
    obtain ⟨text, rfl⟩ := h.1
    rw [shown_print, ih h.2, List.map_cons, String.join_cons]
    rfl

/-- The events of the attribute loop are its calls of `parse_rta`. -/
theorem parseAttributes_eq (size nh : Nat) : parseAttributes size m nh =
    (rtaCalls (parseAttributes size m nh)).map fun c => .parseRta c.1 c.2 := by
  rw [parseAttributes, rtaCalls_parseRtas (toInt_lt _), parseRtas_eq (toInt_lt _), List.map_map]
  rfl

/-- What `parse_rta` prints for something that is not meant to be an attribute. -/
theorem stray_linkRta {other : List Effect} {q : Nat} {clean : Prop}
    (hlink : rtaType m q ∈ linkTypes → ¬clean)
    (hother : rtaType m q ∉ linkTypes → Prints (Effect.output m room other) "" clean) :
    Prints (Effect.output m room (linkRta other m q)) "" clean := by
  simp only [linkTypes, List.mem_cons, List.not_mem_nil, or_false, not_or] at hlink hother
  unfold linkRta
  refine .ite rfl (by decide) (fun h => hlink (by simp [h])) ?_
  intro h0
  refine .ite rfl (by decide) (fun h => hlink (by simp [h])) ?_
  intro h1
  refine .ite rfl (by decide) (fun h => hlink (by simp [h])) ?_
  intro h2
  refine .ite rfl (by decide) (fun h => hlink (by simp [h])) ?_
  intro h3
  refine .ite rfl (by decide) (fun h => hlink (by simp [h])) ?_
  intro h4
  refine .ite rfl (by decide) (fun h => hlink (by simp [h])) ?_
  intro h5
  refine .ite rfl (by decide) (fun h => hlink (by simp [h])) ?_
  intro h6
  refine .ite rfl (by decide) (fun h => hlink (by simp [h])) ?_
  intro h7
  exact hother ⟨h0, h1, h2, h3, h4, h5, h6, h7⟩

theorem typeLabel_pos (type : Nat) : 0 < (IfRtas.typeLabel type).length := by
  by_cases h : type < 56
  · have hall : ∀ t < 56, 0 < (IfRtas.typeLabel t).length := by decide +kernel
    exact hall type h
  · rw [IfRtas.typeLabel_other (Nat.not_lt.mp h)]
    decide

theorem stray_parseRta (q : Nat) :
    Prints (Effect.output m room (w.parseRta m q)) "" (¬w.Shows (rtaType m q)) := by
  cases w with
  | ifAddrs =>
    have hshow : ¬¬(ifAddrs).Shows (rtaType m q) := not_not.mpr trivial
    change Prints (Effect.output m room (IfAddrs.parseRta m q)) "" _
    rw [IfAddrs.parseRta, Effect.output_load]
    refine .ite rfl (by decide) (fun _ => hshow) ?_
    intro _
    refine .ite rfl (by decide) (fun _ => hshow) ?_
    intro _
    refine .ite rfl (by decide) (fun _ => hshow) ?_
    intro _
    refine .ite rfl (by decide) (fun _ => hshow) ?_
    intro _
    refine .ite rfl (by decide) (fun _ => hshow) ?_
    intro _
    refine .ite rfl (by decide) (fun _ => hshow) ?_
    intro _
    refine .ite rfl (by decide) (fun _ => hshow) ?_
    intro _
    refine .ite rfl (by decide) (fun _ => hshow) ?_
    intro _
    refine .ite rfl (by decide) (fun _ => hshow) ?_
    intro _
    refine .ite rfl (by decide) (fun _ => hshow) ?_
    intro _
    refine .ite rfl (by decide) (fun _ => hshow) ?_
    intro _
    exact .labelled rfl (by decide) hshow
  | ifEvents verbose =>
    cases verbose with
    | false =>
      change Prints (Effect.output m room (IfEvents.parseRta false m q)) "" _
      rw [IfEvents.parseRta, if_neg Bool.false_ne_true, List.nil_append, Effect.output_load]
      exact stray_linkRta room m not_not.mpr .empty
    | true => exact .labelled (e := IfEvents.rtaText q) rfl (by decide) (not_not.mpr trivial)
  | ifFlags uapiDef => exact .empty id
  | ifRtas =>
    refine ⟨fun h => absurd trivial h, ?_⟩
    intro _ s hs
    obtain ⟨rest, rfl⟩ := IfRtas.output_label hs
    have hpos := typeLabel_pos (rtaType m q)
    have hzero : "".length = 0 := rfl
    rw [String.length_append]
    omega
  | ifStats =>
    change Prints (Effect.output m room (IfStats.parseRta m q)) "" _
    rw [IfStats.parseRta, Effect.output_load]
    refine .ite rfl (by decide) (fun h => by simp [Shows, h]) ?_
    intro hname
    refine .ite rfl (by decide) (fun h => by simp [Shows, h]) ?_
    intro hstats64
    refine .ite rfl (by decide) (fun h => by simp [Shows, h]) ?_
    intro hstats
    exact .empty (by simp [Shows, hname, hstats64, hstats])

/-! The attributes. -/

section attributes

variable (w : Watcher) {m : Mem} {room p : Nat}

theorem output_parseRta {q : Nat} {a : Rtattr} (h : m.Holds q a.data)
    (hf : 4 + a.payload.length < 65536) (hfit : (w.shape a.type.toNat).Fits a.payload)
    (hroom : a.payload.length ≤ room) :
    Effect.output m room (w.parseRta m q) = some (w.attrText a) := by
  cases w with
  | ifAddrs => exact IfAddrs.output_parseRta h hf hfit hroom
  | ifEvents verbose => exact IfEvents.output_parseRta verbose h hf hfit hroom
  | ifFlags uapiDef => rfl
  | ifRtas => exact IfRtas.output_parseRta h hf hfit hroom
  | ifStats => exact IfStats.output_parseRta h hf hfit hroom

/-- The calls of `parse_rta` at these places. -/
def calls (cs : List (Nat × Rtattr)) : List Event := cs.map fun c => .parseRta c.1 c.2

theorem shown_calls (cs : List (Nat × Rtattr)) :
    w.shown room m (calls cs) = Effect.output m room (cs.flatMap fun c => w.parseRta m c.1) := by
  induction cs with
  | nil => rfl
  | cons c cs ih =>
    rw [List.flatMap_cons, Effect.output_bind, ← ih]
    rfl

/-- The attribute loop of a message that lies in the buffer. -/
theorem shown_parseAttributes {x : Message} {size : Nat} (h : m.Holds p x.wire.record.bytes)
    (hw : w.walksBehind x.type = some size) (hfit : w.Fits x) (hsmall : (x.size : Int) < 2 ^ 31)
    (hroom : x.size ≤ room) :
    Prints (w.shown room m (parseAttributes size m p))
      (String.join (x.attrs.map fun a => w.attrText a.toRtattr))
      (∀ q ∈ w.strays m p x, ¬w.Shows (rtaType m q)) := by
  have hsize := fixedSize_of_walks hw
  have hfix := x.fixed_length size hsize
  have hb := (Mem.holds_append.mp (Message.holds_body h)).2
  rw [hfix] at hb
  have hbody : x.size = 16 + (x.fixed.length + (encodeAll x.attrs).length) := by
    rw [Message.size, Message.body, List.length_append]
  have hsome : (w.walksBehind x.type).isSome := by
    rw [hw]
    rfl
  have hattrs := output_attrs w.attrText hb (show (encodeAll x.attrs).length ≤ room by omega)
    fun q a ha hd hlen => w.output_parseRta hd a.fits (hfit hsome a ha) hlen
  have hstray := output_strays (w.stray_parseRta room m) (w.strays m p x)
  have hfirst : Prints (some (String.join (x.attrs.map fun a => w.attrText a.toRtattr))) _ True :=
    ⟨fun _ => rfl, fun hn => absurd trivial hn⟩
  have hboth := (hfirst.append hstray).congr (iff_of_eq (true_and _))
  rw [strays, if_pos hsome] at hboth ⊢
  rw [parseAttributes_eq, rtaCalls_parseAttributes h hsize hsmall, rtaCalls_parseRtas (by omega)]
  change Prints (w.shown room m (calls _)) _ _
  rw [shown_calls, List.flatMap_append, Effect.output_bind, List.flatMap_map, List.flatMap_map,
    hattrs]
  rwa [String.append_empty] at hboth

end attributes

/-! Messages, datagrams and runs. -/

section run

variable (w : Watcher) {m : Mem} {room p : Nat}

theorem shown_message {x : Message} (h : m.Holds p x.wire.record.bytes) (hfit : w.Fits x)
    (hsmall : (x.size : Int) < 2 ^ 31) (hroom : x.size ≤ room) :
    Prints (w.shown room m (w.parseMessage m p)) (w.messageText x)
      (∀ q ∈ w.strays m p x, ¬w.Shows (rtaType m q)) := by
  obtain ⟨heads, hprint, hjoin, hevents⟩ := splits h w
  have hheads := w.shown_prints room m heads hprint
  rw [hjoin] at hheads
  rw [hevents, shown_append, hheads, messageText, Option.bind_some]
  cases hw : w.walksBehind x.type with
  | none =>
    refine Prints.after ?_ _
    rw [strays, hw]
    exact .empty (List.forall_mem_nil _)
  | some size => exact (w.shown_parseAttributes h hw hfit hsmall hroom).after _

theorem shown_readLoop {xs : List Message}
    (h : m.Holds p (WireMsg.encodeAll (xs.map Message.wire)))
    (hl : ((WireMsg.encodeAll (xs.map Message.wire)).length : Int) < 2 ^ 31)
    (hroom : (WireMsg.encodeAll (xs.map Message.wire)).length ≤ room)
    (hfit : ∀ x ∈ xs, w.Fits x) :
    Prints (w.shown room m (readLoop 0 (w.parseMessage m) m p
        (WireMsg.encodeAll (xs.map Message.wire)).length).2)
      (String.join ((xs.takeWhile fun x => decide ¬x.wire.Stops).map w.messageText))
      (w.Clean m p xs) := by
  induction xs generalizing p with
  | nil =>
    have hnone : readLoop 0 (w.parseMessage m) m p
        (WireMsg.encodeAll ([].map Message.wire)).length = (0, []) := readLoop_nil ..
    rw [hnone]
    exact .empty trivial
  | cons x xs ih =>
    rw [WireMsg.encodeAll, List.map_cons, List.map_cons, Format.encode_cons] at h
    obtain ⟨hx, hxs⟩ := Mem.holds_append.mp h
    have hd : m.Holds p x.wire.data := (Mem.holds_append.mp hx).1
    have hsize : x.wire.record.bytes.length = x.size := x.wire_size
    have hlen : (WireMsg.encodeAll ((x :: xs).map Message.wire)).length =
        x.size + (WireMsg.encodeAll (xs.map Message.wire)).length := by
      rw [← hsize]
      exact List.length_append
    rw [hsize] at hxs
    rw [List.forall_mem_cons] at hfit
    have hrest := ih hxs (by omega) (by omega) hfit.2
    rw [Clean]
    by_cases hs : x.wire.Stops
    · rw [readLoop_stops hd (by rw [x.wire_size]; omega) hl hs,
        List.takeWhile_cons_of_neg (by simpa using hs)]
      exact .empty (.inl hs)
    · have hdiff : ((WireMsg.encodeAll ((x :: xs).map Message.wire)).length : Int) - x.size =
          (WireMsg.encodeAll (xs.map Message.wire)).length := by omega
      have hfirst := w.shown_message hx hfit.1 (by omega) (show x.size ≤ room by omega)
      rw [readLoop_cons hd (by rw [x.wire_size]; omega) hl hs, x.wire_size, hdiff,
        shown_parseMessage, shown_append, List.takeWhile_cons_of_pos (by simpa using hs),
        List.map_cons, String.join_cons]
      exact (hfirst.append hrest).congr (by simp [hs])

theorem output_datagrams {parts : List Datagram} (hne : ∀ d ∈ parts, d.msgs ≠ [])
    (hfit : ∀ d ∈ parts, ∀ x ∈ d.msgs, w.Fits x) (hroom : 8192 ≤ room) (stale : Nat → Mem) :
    Prints (w.output room (deliver stale (parts.map fun d => d.msgs.map Message.wire)))
      (w.text parts) (w.RunClean stale parts) := by
  induction parts generalizing stale with
  | nil => exact .empty trivial
  | cons d ds ih =>
    rw [List.forall_mem_cons] at hne hfit
    have hwires : d.msgs.map Message.wire ≠ [] := by simpa using hne.1
    have hlen : (WireMsg.encodeAll (d.msgs.map Message.wire)).length ≤ 8192 := d.fits
    have hfirst := w.shown_readLoop (Mem.holds_write (stale 0) 0 d.bytes)
      (show ((WireMsg.encodeAll (d.msgs.map Message.wire)).length : Int) < 2 ^ 31 by omega)
      (hlen.trans hroom) hfit.1
    have hrest := ih hne.2 hfit.2 fun i => stale (i + 1)
    obtain ⟨hcode, -⟩ := w.read_datagram (stale 0) hwires hlen
    have hread := readMessage_whole 0 w.parseMessage (stale 0) hwires hlen
    rw [← w.readMessage_eq] at hread
    rw [hread] at hcode
    have hbuf : (recvmsg (stale 0) (WireMsg.encodeAll (d.msgs.map Message.wire))).1 =
        (stale 0).write 0 d.bytes := congrArg Prod.fst (recvmsg_datagram d (stale 0))
    rw [List.map_cons, deliver, output, hread, hbuf, text, RunClean]
    by_cases hfail : Fails (d.msgs.map Message.wire)
    · rw [if_pos hfail] at hcode ⊢
      have hstop : (-1 : Int) ≠ 0 := by decide
      simp only [hcode, if_neg hstop, Option.bind_fun_some, String.append_empty]
      exact hfirst.congr (by simp [hfail])
    · rw [if_neg hfail] at hcode ⊢
      simp only [hcode, if_true]
      exact (hfirst.append hrest).congr (by simp [hfail])

end run

/-- For any number of datagrams a listener prints the text of each message that comes before the
end of its datagram, in order and until there is an error, exactly if nothing that its attribute
loops find behind a message prints anything. -/
theorem printed_iff (w : Watcher) (parts : List Datagram) (hne : ∀ d ∈ parts, d.msgs ≠ [])
    (hfit : ∀ d ∈ parts, ∀ x ∈ d.msgs, w.Fits x) {room : Nat} (hroom : 8192 ≤ room)
    (stale : Nat → Mem) :
    w.output room (deliver stale (parts.map fun d => d.msgs.map Message.wire)) =
        some (w.text parts) ↔ w.RunClean stale parts :=
  (w.output_datagrams hne hfit hroom stale).iff

theorem printed_iff_addr :
    ifAddrs.output 8192 (deliver (fun _ _ => 0) [[newAddr.wire], [newAddr.wire]]) =
        some (ifAddrs.text [⟨[newAddr], by decide⟩, ⟨[newAddr], by decide⟩]) ∧
      ifAddrs.messageText newAddr = "NEW: family: 0, prefixlen: 0, flags: 0, scope: 0, " ++
        "index: 0\n  local: 7f001\n" := by
  refine ⟨(ifAddrs.printed_iff [⟨[newAddr], by decide⟩, ⟨[newAddr], by decide⟩] (by decide) ?_
    (Nat.le_refl 8192) fun _ _ => 0).mpr ⟨?_, .inr ⟨?_, .inr trivial⟩⟩, by decide +kernel⟩
  · simp [Fits, walksBehind, newAddr, shape, Printer.shape, Shape.Fits, IFA_LABEL, IFA_CACHEINFO,
      IFA_FLAGS]
  · exact .inr ⟨by decide +kernel, trivial⟩
  · exact .inr ⟨by decide +kernel, trivial⟩

/-- A header that follows is shown as one more attribute. -/
example :
    ifAddrs.output 8192 (deliver (fun _ _ => 0) [[newAddr.wire, headerOnly.wire]]) =
      some (ifAddrs.messageText newAddr ++ "  unspec\n" ++ ifAddrs.messageText headerOnly) := by
  decide +kernel

end Watcher

end SnippetsC.Netlink
