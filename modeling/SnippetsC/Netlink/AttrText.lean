import SnippetsC.Netlink.AddrText
import SnippetsC.Netlink.PayloadReads
import SnippetsC.Netlink.RtaLabels

namespace SnippetsC.Netlink

open Attr (encodeAll)

/-! The text that the programs show for an attribute, and that `parse_rta` prints it wherever the
attribute lies. -/

namespace Rtattr

/-- The string that the payload starts with. -/
def string (a : Rtattr) : String :=
  String.ofList ((a.payload.takeWhile (· ≠ 0)).map fun b => Char.ofNat b.toNat)

/-- The `n` bytes of the payload from `k` on, as a number. -/
def value (a : Rtattr) (k n : Nat) : Nat := leValue ((a.payload.drop k).take n)

/-- The lines of a record of counters, each `width` bytes wide. -/
def counters (a : Rtattr) (conv : Conversion) (width : Nat) : String :=
  String.join (LinkCounter.all.map fun c =>
    "    " ++ c.label ++ ": " ++ conv.text (a.value (width * c.ctorIdx) width) ++ "\n")

end Rtattr

/-- The types that `if-events` and `if-rtas` both have a case for. -/
def linkTypes : List Nat :=
  [IFLA_UNSPEC, IFLA_ADDRESS, IFLA_BROADCAST, IFLA_IFNAME, IFLA_MTU, IFLA_LINK, IFLA_QDISC,
    IFLA_STATS]

def linkText (other : String) (a : Rtattr) : String :=
  if a.type.toNat = IFLA_UNSPEC then "  unspec\n"
  else if a.type.toNat = IFLA_ADDRESS then "  hw addr: " ++ (hexText a.payload ++ "\n")
  else if a.type.toNat = IFLA_BROADCAST then "  bc addr: " ++ (hexText a.payload ++ "\n")
  else if a.type.toNat = IFLA_IFNAME then "  ifname: " ++ a.string ++ "\n"
  else if a.type.toNat = IFLA_MTU then "  mtu: " ++ (toString (a.value 0 4) ++ "\n")
  else if a.type.toNat = IFLA_LINK then
    "  link: " ++ (Conversion.d.text (a.value 0 4) ++ "\n")
  else if a.type.toNat = IFLA_QDISC then "  qdisc: " ++ a.string ++ "\n"
  else if a.type.toNat = IFLA_STATS then
    "  stats: \n    rx pkts: " ++ (Conversion.d.text (a.value 0 4) ++ (",\n    tx pkts: " ++
      (Conversion.d.text (a.value 4 4) ++ ",\n    ...\n")))
  else other

def IfEvents.attrText (verbose : Bool) (a : Rtattr) : String :=
  (if verbose then
    printf [.lit "routing attribute:\n  len: ", .conv .d, .lit ",\n  type: ", .conv .d, .lit ",\n"]
      [4 + a.payload.length, a.type.toNat]
  else "") ++ linkText (if verbose then "  other\n" else "") a

def IfRtas.attrText (a : Rtattr) : String :=
  linkText ((rtaLabels.lookup a.type.toNat).getD "  other\n") a

/-- One line for each flag that is set. -/
def flagsText (texts : List (Nat × String)) (flags : Nat) : String :=
  String.join ((texts.filter fun x => flags &&& x.1 ≠ 0).map Prod.snd)

def IfAddrs.attrText (a : Rtattr) : String :=
  if a.type.toNat = IFA_UNSPEC then "  unspec\n"
  else if a.type.toNat = IFA_ADDRESS then "  address: " ++ (hexText a.payload ++ "\n")
  else if a.type.toNat = IFA_LOCAL then "  local: " ++ (hexText a.payload ++ "\n")
  else if a.type.toNat = IFA_LABEL then "  label: " ++ a.string ++ "\n"
  else if a.type.toNat = IFA_BROADCAST then "  broadcast: " ++ (hexText a.payload ++ "\n")
  else if a.type.toNat = IFA_ANYCAST then "  anycast: " ++ (hexText a.payload ++ "\n")
  else if a.type.toNat = IFA_CACHEINFO then
    "  cacheinfo: prefered: " ++ (Conversion.d.text (a.value 0 4) ++ (", valid: " ++
      (Conversion.d.text (a.value 4 4) ++ (", created timestamp: " ++
        (Conversion.d.text (a.value 8 4) ++ (", updated timestamp: " ++
          (Conversion.d.text (a.value 12 4) ++ "\n")))))))
  else if a.type.toNat = IFA_MULTICAST then "  multicast: " ++ (hexText a.payload ++ "\n")
  else if a.type.toNat = IFA_FLAGS then "  flags:\n" ++ flagsText ifaFlagTexts (a.value 0 4)
  else if a.type.toNat = IFA_RT_PRIORITY then "  rt priority: ...\n"
  else if a.type.toNat = IFA_TARGET_NETNSID then "  target netnsid: ...\n"
  else "  other (" ++ (toString a.type.toNat ++ ")\n")

def IfStats.attrText (a : Rtattr) : String :=
  if a.type.toNat = IFLA_IFNAME then "  ifname: " ++ a.string ++ "\n"
  else if a.type.toNat = IFLA_STATS64 then "  stats64: \n" ++ a.counters .llu 8
  else if a.type.toNat = IFLA_STATS then "  stats: \n" ++ a.counters .d 4
  else ""

/-! What the cases of `parse_rta` print for an attribute that lies at `q`. -/

theorem output_say (m : Mem) (room : Nat) (text : String) :
    Effect.output m room [say text] = some text := by
  simp [say]

section holds

variable {m : Mem} {q : Nat} {a : Rtattr} (h : m.Holds q a.data) (hf : 4 + a.payload.length < 65536)
include h

theorem holds_payload : m.Holds (rtaData q) a.payload := by
  have hp := (Mem.holds_append.mp (Mem.holds_append.mp h).2).2
  simpa only [leBytes_length, Nat.add_assoc, Nat.reduceAdd, rtaData_eq] using hp

theorem load_payload {k n : Nat} (hk : k + n ≤ a.payload.length) :
    m.load ⟨rtaData q + k, n⟩ = a.value k n := (holds_payload h).load hk

variable (room : Nat)

theorem output_string {before after : String} (hz : 0 ∈ a.payload)
    (hroom : a.payload.length ≤ room) :
    Effect.output m room [.printString before (rtaData q) after] =
      some (before ++ a.string ++ after) := by
  rw [Effect.output, Effect.text, Mem.cstring_of_holds (holds_payload h) hz hroom]
  simp [Effect.output, Rtattr.string]

include hf

theorem output_addr (text : String) :
    Effect.output m room (say text :: printAddr m q) =
      some (text ++ (hexText a.payload ++ "\n")) := by
  have haddr := output_printAddr m room q
  rw [rtattrAt_of_holds h hf] at haddr
  rw [Effect.output, haddr]
  simp [say, Effect.text]

omit hf

theorem output_printIfaFlags (hk : 4 ≤ a.payload.length) :
    Effect.output m room (IfAddrs.printIfaFlags m (rtaData q)) =
      some (flagsText IfAddrs.ifaFlagTexts (a.value 0 4)) := by
  have hload : m.load ⟨rtaData q, 4⟩ = a.value 0 4 :=
    load_payload (k := 0) h (by omega)
  rw [IfAddrs.printIfaFlags, flagsText, hload]
  induction IfAddrs.ifaFlagTexts with
  | nil => rfl
  | cons x xs ih =>
    rw [List.flatMap_cons, List.cons_append, Effect.output_load]
    by_cases hx : a.value 0 4 &&& x.1 ≠ 0
    · rw [if_pos hx, List.filter_cons_of_pos (by simpa using hx), List.map_cons, String.join_cons]
      exact Effect.output_append (output_say m room x.2) ih
    · rw [if_neg hx, List.filter_cons_of_neg (by simpa using hx)]
      exact ih

theorem output_words {fmt : List Piece} {t : String} (args : List (Nat × Nat))
    (hk : ∀ x ∈ args, x.1 + x.2 ≤ a.payload.length)
    (ht : printf fmt (args.map fun x => a.value x.1 x.2) = t) :
    Effect.output m room [.print fmt (args.map fun x => ⟨rtaData q + x.1, x.2⟩)] = some t := by
  have hargs : (args.map fun x => (⟨rtaData q + x.1, x.2⟩ : Extent)).map m.load =
      args.map fun x => a.value x.1 x.2 := by
    rw [List.map_map]
    exact List.map_congr_left fun x hx => load_payload h (hk x hx)
  rw [Effect.output_print, hargs, ht]

/-- The records of counters. -/
theorem load_counter {width : Nat} (hk : width * 24 ≤ a.payload.length) (c : LinkCounter) :
    m.load (c.field width (rtaData q)) = a.value (width * c.ctorIdx) width := by
  have hc : c.ctorIdx + 1 ≤ 24 := by
    cases c
    all_goals decide
  have hmul := Nat.mul_le_mul_left width hc
  rw [Nat.mul_succ] at hmul
  exact load_payload h (hmul.trans hk)

end holds

theorem Rtattr.value_lt (a : Rtattr) (k n : Nat) : a.value k n < 256 ^ n := by
  have hlt := leValue_lt ((a.payload.drop k).take n)
  have hle : ((a.payload.drop k).take n).length ≤ n := List.length_take_le _ _
  exact hlt.trans_le (Nat.pow_le_pow_right (by decide) hle)

section parse

variable {m : Mem} {q room : Nat} {a : Rtattr}

theorem output_linkRta {other : List Effect} {otherText : String} (verbose : Bool)
    (h : m.Holds q a.data) (hf : 4 + a.payload.length < 65536)
    (hfit : ((Printer.ifEvents verbose).shape a.type.toNat).Fits a.payload)
    (hroom : a.payload.length ≤ room)
    (hother : Effect.output m room other = some otherText) :
    Effect.output m room (linkRta other m q) = some (linkText otherText a) := by
  unfold linkRta linkText
  rw [rtaType_of_holds h hf]
  refine Effect.output_ite (fun _ => output_say m room _) ?_
  intro _
  refine Effect.output_ite (fun _ => output_addr h hf room _) ?_
  intro _
  refine Effect.output_ite (fun _ => output_addr h hf room _) ?_
  intro _
  refine Effect.output_ite ?_ ?_
  · intro hname
    rw [hname] at hfit
    exact output_string h room hfit hroom
  intro _
  refine Effect.output_ite ?_ ?_
  · intro hmtu
    rw [hmtu] at hfit
    refine output_words h room [(0, 4)] (List.forall_mem_singleton.mpr hfit) ?_
    have hu : Conversion.u.text (a.value 0 4) = toString (a.value 0 4) :=
      Conversion.text_u (a.value_lt 0 4)
    simp [hu]
  intro _
  refine Effect.output_ite ?_ ?_
  · intro hlink
    rw [hlink] at hfit
    exact output_words h room [(0, 4)] (List.forall_mem_singleton.mpr hfit) rfl
  intro _
  refine Effect.output_ite ?_ ?_
  · intro hqdisc
    rw [hqdisc] at hfit
    exact output_string h room hfit hroom
  intro _
  refine Effect.output_ite ?_ (fun _ => hother)
  intro hstats
  rw [hstats] at hfit
  have hlen : 8 ≤ a.payload.length := hfit
  refine output_words h room [(0, 4), (4, 4)] ?_ rfl
  simp
  omega

theorem IfEvents.output_parseRta (verbose : Bool) (h : m.Holds q a.data)
    (hf : 4 + a.payload.length < 65536)
    (hfit : ((Printer.ifEvents verbose).shape a.type.toNat).Fits a.payload)
    (hroom : a.payload.length ≤ room) :
    Effect.output m room (parseRta verbose m q) = some (attrText verbose a) := by
  have hother : Effect.output m room (if verbose then [say "  other\n"] else []) =
      some (if verbose then "  other\n" else "") :=
    Effect.output_ite (fun _ => output_say m room _) fun _ => rfl
  have hlen : m.load (rtaLenField q) = 4 + a.payload.length := rtaLen_of_holds h hf
  have htype : m.load (rtaTypeField q) = a.type.toNat := rtaType_of_holds h hf
  refine Effect.output_append (Effect.output_ite ?_ fun _ => rfl) ?_
  · intro _
    rw [rtaText, Effect.output_print, List.map_cons, List.map_cons, List.map_nil, hlen, htype]
  · rw [Effect.output_load]
    exact output_linkRta verbose h hf hfit hroom hother

theorem IfRtas.output_parseRta (h : m.Holds q a.data) (hf : 4 + a.payload.length < 65536)
    (hfit : ((Printer.ifEvents true).shape a.type.toNat).Fits a.payload)
    (hroom : a.payload.length ≤ room) :
    Effect.output m room (parseRta m q) = some (attrText a) := by
  rw [parseRta, Effect.output_load, rtaType_of_holds h hf]
  exact output_linkRta true h hf hfit hroom (output_say m room _)

theorem IfAddrs.output_parseRta (h : m.Holds q a.data) (hf : 4 + a.payload.length < 65536)
    (hfit : (Printer.ifAddrs.shape a.type.toNat).Fits a.payload)
    (hroom : a.payload.length ≤ room) :
    Effect.output m room (parseRta m q) = some (attrText a) := by
  have htype := rtaType_of_holds h hf
  have hbytes (text : String) := output_addr h hf room text
  unfold parseRta attrText
  rw [Effect.output_load, htype]
  refine Effect.output_ite (fun _ => output_say m room _) ?_
  intro _
  refine Effect.output_ite (fun _ => hbytes _) ?_
  intro _
  refine Effect.output_ite (fun _ => hbytes _) ?_
  intro _
  refine Effect.output_ite ?_ ?_
  · intro hlabel
    rw [hlabel] at hfit
    exact output_string h room hfit hroom
  intro _
  refine Effect.output_ite (fun _ => hbytes _) ?_
  intro _
  refine Effect.output_ite (fun _ => hbytes _) ?_
  intro _
  refine Effect.output_ite ?_ ?_
  · intro hcacheinfo
    rw [hcacheinfo] at hfit
    have hlen : 16 ≤ a.payload.length := hfit
    refine output_words h room [(0, 4), (4, 4), (8, 4), (12, 4)] ?_ rfl
    simp
    omega
  intro _
  refine Effect.output_ite (fun _ => hbytes _) ?_
  intro _
  refine Effect.output_ite ?_ ?_
  · intro hflags
    rw [hflags] at hfit
    exact Effect.output_append (output_say m room _) (output_printIfaFlags h room hfit)
  intro _
  refine Effect.output_ite (fun _ => output_say m room _) ?_
  intro _
  refine Effect.output_ite (fun _ => output_say m room _) ?_
  intro _
  have hload : m.load (rtaTypeField q) = a.type.toNat := htype
  have hlt := a.type.toNat_lt
  rw [Effect.output_print, List.map_cons, List.map_nil, hload, printf_lit, printf_conv,
    Conversion.text_d (by omega)]
  rfl

theorem IfStats.output_parseRta (h : m.Holds q a.data) (hf : 4 + a.payload.length < 65536)
    (hfit : (Printer.ifStats.shape a.type.toNat).Fits a.payload)
    (hroom : a.payload.length ≤ room) :
    Effect.output m room (parseRta m q) = some (attrText a) := by
  unfold parseRta attrText
  rw [Effect.output_load, rtaType_of_holds h hf]
  refine Effect.output_ite ?_ ?_
  · intro hname
    rw [hname] at hfit
    exact output_string h room hfit hroom
  intro _
  refine Effect.output_ite ?_ ?_
  · intro hstats64
    rw [hstats64] at hfit
    have hlines (c : LinkCounter) : Conversion.llu.text (a.value (8 * c.ctorIdx) 8) =
        toString (a.value (8 * c.ctorIdx) 8) := Conversion.text_llu (a.value_lt _ 8)
    rw [Effect.output, printStats64_text (load_counter h hfit) fun c => a.value_lt _ 8]
    simp [Effect.output, Rtattr.counters, decimalLines, hlines]
  intro _
  refine Effect.output_ite ?_ fun _ => rfl
  intro hstats
  rw [hstats] at hfit
  rw [Effect.output, printStats_text (load_counter h hfit)]
  simp [Effect.output, Rtattr.counters]

end parse

/-! Calls of `parse_rta` one after another. -/

section calls

variable {m : Mem} {room p : Nat} {parse : Nat → List Effect}

theorem output_attrs (text : Rtattr → String) {as : List Attr} (h : m.Holds p (encodeAll as))
    (hroom : (encodeAll as).length ≤ room)
    (hone : ∀ q, ∀ a ∈ as, m.Holds q a.data → a.payload.length ≤ room →
      Effect.output m room (parse q) = some (text a.toRtattr)) :
    Effect.output m room ((placed Attr.size p as).flatMap fun y => parse y.1) =
      some (String.join (as.map fun a => text a.toRtattr)) := by
  induction as generalizing p with
  | nil => rfl
  | cons a as ih =>
    obtain ⟨ha, has⟩ := Mem.holds_append.mp h
    have hd : m.Holds p a.data := (Mem.holds_append.mp ha).1
    have hlen : (encodeAll (a :: as)).length = a.record.bytes.length + (encodeAll as).length :=
      List.length_append
    have hsize : a.data.length ≤ a.record.bytes.length := a.record.data_le
    rw [Rtattr.data_length] at hsize
    have hfirst := hone p a List.mem_cons_self hd (by omega)
    have hrest := ih has (by omega) fun q b hb => hone q b (List.mem_cons_of_mem a hb)
    rw [placed, List.flatMap_cons, List.map_cons, String.join_cons]
    exact Effect.output_append hfirst hrest

theorem output_strays {clean : Nat → Prop}
    (hone : ∀ q, Prints (Effect.output m room (parse q)) "" (clean q)) (qs : List Nat) :
    Prints (Effect.output m room (qs.flatMap parse)) "" (∀ q ∈ qs, clean q) := by
  induction qs with
  | nil => exact .empty (List.forall_mem_nil _)
  | cons q qs ih =>
    have h := (hone q).append ih
    rw [← Effect.output_bind, String.empty_append] at h
    exact h.congr List.forall_mem_cons.symm

end calls

end SnippetsC.Netlink
