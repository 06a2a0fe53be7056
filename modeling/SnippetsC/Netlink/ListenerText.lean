import SnippetsC.Netlink.AttrText
import SnippetsC.Netlink.FlagText
import SnippetsC.Netlink.ListenerRuns

namespace SnippetsC.Netlink

/-! The text that the event listeners show for a message. -/

/-- Bytes of the fixed struct, as a number. -/
def Message.field (x : Message) (k n : Nat) : Nat := leValue ((x.fixed.drop k).take n)

def IfEvents.headText (verbose : Bool) (x : Message) : String :=
  let link := if verbose then
      printf ifinfomsgFormat [x.field 0 1, x.field 2 2, x.field 4 4, x.field 8 4, x.field 12 4]
    else ""
  (if verbose then
    printf nlmsghdrFormat [16 + x.wire.payload.length, x.type.toNat, x.flags.toNat, x.seq.toNat,
      x.pid.toNat]
  else "") ++
    if x.type.toNat = RTM_NEWLINK then "new link\n" ++ link
    else if x.type.toNat = RTM_DELLINK then "del link\n" ++ link
    else if x.type.toNat = RTM_NEWADDR then "new addr\n"
    else if x.type.toNat = RTM_DELADDR then "del addr\n"
    else "other\n"

def IfAddrs.headText (x : Message) : String :=
  let addr := printf ifaddrmsgFormat
    [x.field 0 1, x.field 1 1, x.field 2 1, x.field 3 1, x.field 4 4]
  if x.type.toNat = RTM_NEWADDR then "NEW: " ++ addr
  else if x.type.toNat = RTM_DELADDR then "DEL: " ++ addr
  else "other\n"

def IfFlags.headText (uapiDef : Bool) (x : Message) : String :=
  if x.type.toNat = RTM_NEWLINK ∨ x.type.toNat = RTM_DELLINK then
    printf [.lit "interface ", .conv .d, .lit " flags:\n"] [x.field 4 4] ++
      flagsText (flagTexts ++ if uapiDef then lowerUpTexts else []) (x.field 8 4)
  else ""

def IfRtas.headText (x : Message) : String :=
  if x.type.toNat = RTM_NEWLINK ∨ x.type.toNat = RTM_DELLINK then "" else "other\n"

namespace Watcher

def parseRta : Watcher → Mem → Nat → List Effect
  | ifAddrs => IfAddrs.parseRta
  | ifEvents verbose => IfEvents.parseRta verbose
  | ifFlags _ => fun _ _ => []
  | ifRtas => IfRtas.parseRta
  | ifStats => IfStats.parseRta

/-- The size of the fixed struct in front of the attributes that are handed to `parse_rta`. -/
def walksBehind : Watcher → UInt16 → Option Nat
  | ifAddrs, type =>
    if type.toNat = RTM_NEWADDR ∨ type.toNat = RTM_DELADDR then some sizeofIfaddrmsg else none
  | ifEvents _, type =>
    if type.toNat = RTM_NEWLINK ∨ type.toNat = RTM_DELLINK then some sizeofIfinfomsg else none
  | ifFlags _, _ => none
  | ifRtas, type =>
    if type.toNat = RTM_NEWLINK ∨ type.toNat = RTM_DELLINK then some sizeofIfinfomsg else none
  | ifStats, type => if type.toNat = RTM_NEWLINK then some sizeofIfinfomsg else none

/-- What is printed for a message in front of its attributes. -/
def headText : Watcher → Message → String
  | ifAddrs, x => IfAddrs.headText x
  | ifEvents verbose, x => IfEvents.headText verbose x
  | ifFlags uapiDef, x => IfFlags.headText uapiDef x
  | ifRtas, x => IfRtas.headText x
  | ifStats, _ => ""

def attrText : Watcher → Rtattr → String
  | ifAddrs => IfAddrs.attrText
  | ifEvents verbose => IfEvents.attrText verbose
  | ifFlags _ => fun _ => ""
  | ifRtas => IfRtas.attrText
  | ifStats => IfStats.attrText

/-- What is to be printed for a message. -/
def messageText (w : Watcher) (x : Message) : String :=
  w.headText x ++
    if (w.walksBehind x.type).isSome then String.join (x.attrs.map fun a => w.attrText a.toRtattr)
    else ""

/-- What `parse_rta` takes an attribute for. -/
def shape : Watcher → Nat → Shape
  | ifAddrs => Printer.ifAddrs.shape
  | ifEvents verbose => (Printer.ifEvents verbose).shape
  | ifFlags _ => fun _ => .bytes
  | ifRtas => (Printer.ifEvents true).shape
  | ifStats => Printer.ifStats.shape

/-- The attributes of the message are what they are taken for. -/
def Fits (w : Watcher) (x : Message) : Prop :=
  (w.walksBehind x.type).isSome → ∀ a ∈ x.attrs, (w.shape a.type.toNat).Fits a.payload

end Watcher

/-! The texts in front of the attributes. -/

theorem header_of_holds {m : Mem} {p : Nat} {x : WireMsg} (h : m.Holds p x.data) :
    nlmsgFlags m p = x.flags.toNat ∧ nlmsgSeq m p = x.seq.toNat ∧ nlmsgPid m p = x.pid.toNat := by
  have hmsg := nlmsgAt_of_holds h x.fits
  have hflags := congrArg (fun y => y.flags.toNat) hmsg
  have hseq := congrArg (fun y => y.seq.toNat) hmsg
  have hpid := congrArg (fun y => y.pid.toNat) hmsg
  have hword (q : Nat) : m.load32 q < 4294967296 := by
    have hlt := leValue_lt (m.bytes q 4)
    rwa [Mem.bytes_length] at hlt
  simp only [nlmsgAt, UInt16.toNat_ofNat', UInt32.toNat_ofNat'] at hflags hseq hpid
  exact ⟨(Nat.mod_eq_of_lt (m.load16_lt _)).symm.trans hflags,
    (Nat.mod_eq_of_lt (hword _)).symm.trans hseq, (Nat.mod_eq_of_lt (hword _)).symm.trans hpid⟩

section head

variable {m : Mem} {p : Nat} {x : Message} (h : m.Holds p x.wire.record.bytes)
include h

/-- The fixed struct is read back from the buffer. -/
theorem load_field {size : Nat} (hsize : fixedSize x.type = some size) {k n : Nat}
    (hk : k + n ≤ size) : m.load ⟨p + sizeofNlmsghdr + k, n⟩ = x.field k n := by
  have hfix := x.fixed_length size hsize
  exact (Mem.holds_append.mp (Message.holds_body h)).1.load (by omega)

theorem IfEvents.nlmsghdrText_of_holds : nlmsghdrText m p =
    printf nlmsghdrFormat [16 + x.wire.payload.length, x.type.toNat, x.flags.toNat, x.seq.toNat,
      x.pid.toNat] := by
  have hd : m.Holds p x.wire.data := (Mem.holds_append.mp h).1
  obtain ⟨hflags, hseq, hpid⟩ := header_of_holds hd
  rw [nlmsghdrText, nlmsgLen_of_holds hd x.wire.fits, nlmsgType_of_holds hd, hflags, hseq, hpid]
  rfl

theorem IfEvents.ifinfomsgText_of_holds (hsize : fixedSize x.type = some sizeofIfinfomsg) :
    ifinfomsgText m (p + sizeofNlmsghdr) = printf ifinfomsgFormat
      [x.field 0 1, x.field 2 2, x.field 4 4, x.field 8 4, x.field 12 4] := by
  have hfield {k n : Nat} (hk : k + n ≤ 16) := load_field (k := k) (n := n) h hsize hk
  rw [ifinfomsgText, ifinfomsgFields, ← hfield (by decide), ← hfield (by decide),
    ← hfield (by decide), ← hfield (by decide), ← hfield (by decide)]
  rfl

theorem IfAddrs.ifaddrmsgLine_of_holds (hsize : fixedSize x.type = some sizeofIfaddrmsg) :
    ifaddrmsgLine m (p + sizeofNlmsghdr) = printf ifaddrmsgFormat
      [x.field 0 1, x.field 1 1, x.field 2 1, x.field 3 1, x.field 4 4] := by
  have hfield {k n : Nat} (hk : k + n ≤ 8) := load_field (k := k) (n := n) h hsize hk
  rw [ifaddrmsgLine_eq, ifaddrmsgFields, ← hfield (by decide), ← hfield (by decide),
    ← hfield (by decide), ← hfield (by decide), ← hfield (by decide)]
  rfl

end head

namespace Watcher

/-- `parse_message` prints `text` and then loops over the attributes behind `size` bytes, if there
are any for it. -/
def Splits (events : List Event) (text : String) (size : Option Nat) (m : Mem) (p : Nat) : Prop :=
  ∃ heads : List Event, (∀ e ∈ heads, ∃ t, e = .print t) ∧
    String.join (heads.map Event.text) = text ∧
    events = heads ++ size.elim [] fun size => parseAttributes size m p

namespace Splits

variable {events : List Event} {text : String} {size : Option Nat} {m : Mem} {p : Nat}

theorem print (h : Splits events text size m p) (t : String) :
    Splits (.print t :: events) (t ++ text) size m p := by
  obtain ⟨heads, hprint, hjoin, rfl⟩ := h
  refine ⟨.print t :: heads, List.forall_mem_cons.mpr ⟨⟨t, rfl⟩, hprint⟩, ?_, rfl⟩
  rw [List.map_cons, String.join_cons, hjoin]
  rfl

theorem print_if (h : Splits events text size m p) (c : Bool) (t : String) :
    Splits ((if c then [.print t] else []) ++ events) ((if c then t else "") ++ text) size m p := by
  cases c with
  | false =>
    rw [if_neg Bool.false_ne_true, if_neg Bool.false_ne_true, String.empty_append]
    exact h
  | true => exact h.print t

theorem nil : Splits [] "" none m p := ⟨[], List.forall_mem_nil _, rfl, rfl⟩

theorem one (t : String) : Splits [.print t] t none m p := by
  have h := (nil (m := m) (p := p)).print t
  rwa [String.append_empty] at h

theorem attributes (size : Nat) : Splits (parseAttributes size m p) "" (some size) m p :=
  ⟨[], List.forall_mem_nil _, rfl, rfl⟩

theorem flagLines (flags : Nat) (texts : List (Nat × String)) :
    Splits (IfFlags.flagLines flags texts) (flagsText texts flags) none m p := by
  refine ⟨IfFlags.flagLines flags texts, ?_, ?_, (List.append_nil _).symm⟩
  · intro e he
    obtain ⟨x, -, rfl⟩ := List.mem_map.mp he
    exact ⟨x.2, rfl⟩
  · rw [IfFlags.flagLines_text]
    rfl

end Splits

section parse

variable {m : Mem} {p : Nat} {x : Message} (h : m.Holds p x.wire.record.bytes)
include h

theorem ifAddrs_splits : Splits (IfAddrs.parseMessage m p) (IfAddrs.headText x)
    (ifAddrs.walksBehind x.type) m p := by
  have htype : nlmsgType m p = x.type.toNat := nlmsgType_of_holds (Mem.holds_append.mp h).1
  have haddr (hx : x.type.toNat = RTM_NEWADDR ∨ x.type.toNat = RTM_DELADDR) :
      Splits (IfAddrs.parseAddrMessage m p) (printf IfAddrs.ifaddrmsgFormat
        [x.field 0 1, x.field 1 1, x.field 2 1, x.field 3 1, x.field 4 4])
        (ifAddrs.walksBehind x.type) m p := by
    rw [← IfAddrs.ifaddrmsgLine_of_holds h ((fixedSize_addr x.type).mpr hx), walksBehind,
      if_pos hx]
    have hall := (Splits.attributes (m := m) (p := p) sizeofIfaddrmsg).print
      (IfAddrs.ifaddrmsgLine m (p + sizeofNlmsghdr))
    rwa [String.append_empty] at hall
  rw [IfAddrs.parseMessage, htype, IfAddrs.headText]
  by_cases hnew : x.type.toNat = RTM_NEWADDR
  · rw [if_pos hnew, if_pos hnew]
    exact (haddr (.inl hnew)).print _
  · by_cases hdel : x.type.toNat = RTM_DELADDR
    · rw [if_neg hnew, if_neg hnew, if_pos hdel, if_pos hdel]
      exact (haddr (.inr hdel)).print _
    · rw [if_neg hnew, if_neg hnew, if_neg hdel, if_neg hdel, walksBehind,
        if_neg (not_or.mpr ⟨hnew, hdel⟩)]
      exact .one _

theorem ifEvents_splits (verbose : Bool) :
    Splits (IfEvents.parseMessage verbose m p) (IfEvents.headText verbose x)
      ((ifEvents verbose).walksBehind x.type) m p := by
  have htype : nlmsgType m p = x.type.toNat := nlmsgType_of_holds (Mem.holds_append.mp h).1
  have hlink (hx : x.type.toNat = RTM_NEWLINK ∨ x.type.toNat = RTM_DELLINK) :
      Splits (IfEvents.parseLinkMessage verbose m p) (if verbose then
        printf IfEvents.ifinfomsgFormat [x.field 0 1, x.field 2 2, x.field 4 4, x.field 8 4,
          x.field 12 4] else "") ((ifEvents verbose).walksBehind x.type) m p := by
    rw [← IfEvents.ifinfomsgText_of_holds h ((fixedSize_link x.type).mpr hx), walksBehind,
      if_pos hx]
    have hall := (Splits.attributes (m := m) (p := p) sizeofIfinfomsg).print_if verbose
      (IfEvents.ifinfomsgText m (p + sizeofNlmsghdr))
    rwa [String.append_empty] at hall
  rw [IfEvents.parseMessage, htype, IfEvents.nlmsghdrText_of_holds h, IfEvents.headText]
  refine Splits.print_if ?_ verbose _
  by_cases hnew : x.type.toNat = RTM_NEWLINK
  · rw [if_pos hnew, if_pos hnew]
    exact (hlink (.inl hnew)).print _
  · by_cases hdel : x.type.toNat = RTM_DELLINK
    · rw [if_neg hnew, if_neg hnew, if_pos hdel, if_pos hdel]
      exact (hlink (.inr hdel)).print _
    · rw [if_neg hnew, if_neg hnew, if_neg hdel, if_neg hdel, walksBehind,
        if_neg (not_or.mpr ⟨hnew, hdel⟩)]
      split_ifs
      · exact .one _
      · exact .one _
      · exact .one _

theorem ifFlags_splits (uapiDef : Bool) :
    Splits (IfFlags.parseMessage uapiDef m p) (IfFlags.headText uapiDef x) none m p := by
  have htype : nlmsgType m p = x.type.toNat := nlmsgType_of_holds (Mem.holds_append.mp h).1
  rw [IfFlags.parseMessage, htype, IfFlags.headText]
  by_cases hx : x.type.toNat = RTM_NEWLINK ∨ x.type.toNat = RTM_DELLINK
  · have hfield {k n : Nat} (hk : k + n ≤ 16) :=
      load_field (k := k) (n := n) h ((fixedSize_link x.type).mpr hx) hk
    have hlines (flags : Nat) : IfFlags.flagLines flags IfFlags.flagTexts ++
        (if uapiDef then IfFlags.flagLines flags IfFlags.lowerUpTexts else []) =
          IfFlags.flagLines flags (IfFlags.flagTexts ++
            if uapiDef then IfFlags.lowerUpTexts else []) := by
      cases uapiDef
      · simp
      · simp [IfFlags.flagLines]
    rw [if_pos hx, if_pos hx, ← hfield (by decide), ← hfield (by decide)]
    simp only [IfFlags.parseLinkMessage, hlines]
    exact (Splits.flagLines _ _).print _
  · rw [if_neg hx, if_neg hx]
    exact .nil

theorem ifRtas_splits : Splits (IfRtas.parseMessage m p) (IfRtas.headText x)
    (ifRtas.walksBehind x.type) m p := by
  have htype : nlmsgType m p = x.type.toNat := nlmsgType_of_holds (Mem.holds_append.mp h).1
  rw [IfRtas.parseMessage, htype, IfRtas.headText, walksBehind]
  by_cases hx : x.type.toNat = RTM_NEWLINK ∨ x.type.toNat = RTM_DELLINK
  · rw [if_pos hx, if_pos hx, if_pos hx]
    exact .attributes sizeofIfinfomsg
  · rw [if_neg hx, if_neg hx, if_neg hx]
    exact .one _

theorem ifStats_splits :
    Splits (IfStats.parseMessage m p) "" (ifStats.walksBehind x.type) m p := by
  have htype : nlmsgType m p = x.type.toNat := nlmsgType_of_holds (Mem.holds_append.mp h).1
  rw [IfStats.parseMessage, htype, walksBehind]
  by_cases hx : x.type.toNat = RTM_NEWLINK
  · rw [if_pos hx, if_pos hx]
    exact .attributes sizeofIfinfomsg
  · rw [if_neg hx, if_neg hx]
    exact .nil

theorem splits (w : Watcher) :
    Splits (w.parseMessage m p) (w.headText x) (w.walksBehind x.type) m p := by
  cases w with
  | ifAddrs => exact ifAddrs_splits h
  | ifEvents verbose => exact ifEvents_splits h verbose
  | ifFlags uapiDef => exact ifFlags_splits h uapiDef
  | ifRtas => exact ifRtas_splits h
  | ifStats => exact ifStats_splits h

end parse

theorem fixedSize_of_walks {w : Watcher} {type : UInt16} {size : Nat}
    (h : w.walksBehind type = some size) : fixedSize type = some size := by
  cases w with
  | ifAddrs =>
    obtain ⟨htype, hsize⟩ := Option.ite_none_right_eq_some.mp h
    rw [← hsize]
    exact (fixedSize_addr type).mpr htype
  | ifEvents verbose =>
    obtain ⟨htype, hsize⟩ := Option.ite_none_right_eq_some.mp h
    rw [← hsize]
    exact (fixedSize_link type).mpr htype
  | ifFlags uapiDef => cases h
  | ifRtas =>
    obtain ⟨htype, hsize⟩ := Option.ite_none_right_eq_some.mp h
    rw [← hsize]
    exact (fixedSize_link type).mpr htype
  | ifStats =>
    obtain ⟨htype, hsize⟩ := Option.ite_none_right_eq_some.mp h
    rw [← hsize]
    exact (fixedSize_link type).mpr (.inl htype)

end Watcher

end SnippetsC.Netlink
