import SnippetsC.Netlink.Printers

namespace SnippetsC.Netlink

/-! Whether the printers read no more of an attribute than it has. -/

/-- The programs whose `parse_rta` shows the contents of attributes. -/
inductive Printer where
  | ifEvents (verbose : Bool)
  | ifAddrs
  | ifStats

def Printer.parseRta : Printer → Mem → Nat → List Effect
  | ifEvents verbose => IfEvents.parseRta verbose
  | ifAddrs => IfAddrs.parseRta
  | ifStats => IfStats.parseRta

def InHeader (rta i : Nat) : Prop := rta ≤ i ∧ i < rta + sizeofRtattr

def InPayload (m : Mem) (rta i : Nat) : Prop :=
  rtaData rta ≤ i ∧ (i : Int) < rtaData rta + rtaPayload m rta

/-- What a printer takes the payload for. -/
inductive Shape where
  | bytes
  | string
  | words (size : Nat)

/-- The payload has what is taken for granted: a zero byte, or enough bytes. -/
def Shape.Fits (payload : List UInt8) : Shape → Prop
  | bytes => True
  | string => 0 ∈ payload
  | words size => size ≤ payload.length

/-- What each type of attribute is taken for. -/
def Printer.shape : Printer → Nat → Shape
  | ifEvents _, type =>
    if type = IFLA_IFNAME ∨ type = IFLA_QDISC then .string
    else if type = IFLA_MTU ∨ type = IFLA_LINK then .words 4
    else if type = IFLA_STATS then .words 8
    else .bytes
  | ifAddrs, type =>
    if type = IFA_LABEL then .string
    else if type = IFA_CACHEINFO then .words 16
    else if type = IFA_FLAGS then .words 4
    else .bytes
  | ifStats, type =>
    if type = IFLA_IFNAME then .string
    else if type = IFLA_STATS64 then .words 192
    else if type = IFLA_STATS then .words 96
    else .bytes

/-- The reads of a list of effects stay in the attribute. -/
def StaysInAttr (m : Mem) (rta : Nat) (effects : List Effect) : Prop :=
  Effect.Stays m (fun i => InHeader rta i ∨ InPayload m rta i) effects

section

variable {m : Mem} {rta : Nat}

theorem payload_length (m : Mem) (rta : Nat) :
    (rtattrAt m rta).payload.length = (rtaPayload m rta).toNat := Mem.bytes_length _ _ _

theorem inPayload_iff {i : Nat} :
    InPayload m rta i ↔ rtaData rta ≤ i ∧ i < rtaData rta + (rtattrAt m rta).payload.length := by
  rw [payload_length, InPayload]
  apply and_congr_right
  intro _
  omega

/-- Values that reach up to `size` bytes behind the header are read from the payload exactly if it
has that many. -/
theorem extents_in_iff {size : Nat} {es : List Extent} (hin : ∀ e ∈ es, e.Within (rtaData rta) size)
    (hlast : ∃ e ∈ es, 0 < e.size ∧ e.start + e.size = rtaData rta + size) :
    (∀ e ∈ es, ∀ i, e.start ≤ i → i < e.start + e.size → InHeader rta i ∨ InPayload m rta i) ↔
      size ≤ (rtattrAt m rta).payload.length := by
  have hdata := rtaData_eq rta
  constructor
  · intro h
    obtain ⟨e, he, hpos, hend⟩ := hlast
    obtain ⟨hstart, -⟩ := hin e he
    have hbyte := h e he (e.start + e.size - 1) (by omega) (by omega)
    rw [inPayload_iff] at hbyte
    unfold InHeader sizeofRtattr at hbyte
    omega
  · intro h e he i hi hlt
    obtain ⟨hstart, hend⟩ := hin e he
    rw [inPayload_iff]
    exact Or.inr ⟨by omega, by omega⟩

/-- A string is read from the payload exactly if it ends there. -/
theorem string_in_iff :
    (∀ i, m.StringReads (rtaData rta) i → InHeader rta i ∨ InPayload m rta i) ↔
      0 ∈ (rtattrAt m rta).payload := by
  have hdata := rtaData_eq rta
  have hmem : 0 ∈ (rtattrAt m rta).payload ↔
      ∃ k, k < (rtattrAt m rta).payload.length ∧ m (rtaData rta + k) = 0 := by
    rw [payload_length]
    exact Mem.mem_bytes
  rw [hmem]
  constructor
  · intro h
    by_contra hnone
    have hread : m.StringReads (rtaData rta)
        (rtaData rta + (rtattrAt m rta).payload.length) := by
      refine ⟨by omega, ?_⟩
      intro j hj hlt hz
      apply hnone
      refine ⟨j - rtaData rta, by omega, ?_⟩
      rw [Nat.add_sub_cancel' hj]
      exact hz
    have hin := h _ hread
    rw [inPayload_iff] at hin
    unfold InHeader sizeofRtattr at hin
    omega
  · intro h i hread
    obtain ⟨k, hk, hz⟩ := h
    rw [inPayload_iff]
    refine Or.inr ⟨hread.1, ?_⟩
    by_contra hge
    exact hread.2 (rtaData rta + k) (by omega) (by omega) hz

theorem staysInAttr_say (text : String) (effects : List Effect) :
    StaysInAttr m rta (say text :: effects) ↔ StaysInAttr m rta effects := by
  apply Effect.stays_cons.trans
  apply and_iff_right
  intro i h
  obtain ⟨e, he, -⟩ := h
  cases he

theorem rtaLenField_within (rta : Nat) : (rtaLenField rta).Within rta sizeofRtattr :=
  ⟨le_refl _, Nat.add_le_add_left (Nat.le_add_left 2 2) rta⟩

theorem rtaTypeField_within (rta : Nat) : (rtaTypeField rta).Within rta sizeofRtattr :=
  ⟨Nat.le_add_right _ _, le_refl _⟩

/-- The header belongs to the attribute. -/
theorem staysInAttr_load {e : Extent} (h : e.Within rta sizeofRtattr) (effects : List Effect) :
    StaysInAttr m rta (.load e :: effects) ↔ StaysInAttr m rta effects := by
  apply Effect.stays_cons.trans
  apply and_iff_right
  intro i hread
  exact Or.inl ⟨h.1.trans hread.1, hread.2.trans_le h.2⟩

theorem staysInAttr_nil : StaysInAttr m rta [] := Effect.stays_nil

theorem staysInAttr_header {fmt : List Piece} {args : List Extent}
    (h : ∀ e ∈ args, e.Within rta sizeofRtattr) : StaysInAttr m rta [.print fmt args] := by
  refine Effect.stays_cons.mpr ⟨?_, staysInAttr_nil⟩
  intro i hread
  obtain ⟨e, he, hi, hlt⟩ := hread
  exact Or.inl ⟨(h e he).1.trans hi, hlt.trans_le (h e he).2⟩

theorem staysInAttr_print {fmt : List Piece} {args : List Extent} {size : Nat}
    (hin : ∀ e ∈ args, e.Within (rtaData rta) size)
    (hlast : ∃ e ∈ args, 0 < e.size ∧ e.start + e.size = rtaData rta + size) :
    StaysInAttr m rta [.print fmt args] ↔ size ≤ (rtattrAt m rta).payload.length := by
  rw [← extents_in_iff hin hlast]
  apply Effect.stays_cons.trans
  constructor
  · intro h e he i hi hlt
    exact h.1 i ⟨e, he, hi, hlt⟩
  · intro h
    refine ⟨?_, staysInAttr_nil⟩
    intro i hread
    obtain ⟨e, he, hi, hlt⟩ := hread
    exact h e he i hi hlt

theorem staysInAttr_string (before after : String) :
    StaysInAttr m rta [.printString before (rtaData rta) after] ↔
      0 ∈ (rtattrAt m rta).payload := by
  rw [← string_in_iff]
  exact Effect.stays_cons.trans (and_iff_left staysInAttr_nil)

/-- The byte loops stop in time on every payload. -/
theorem staysInAttr_printBytes : StaysInAttr m rta (printBytes m rta) := by
  rw [printBytes, StaysInAttr, Effect.stays_append, Effect.stays_flatMap]
  refine ⟨?_, (staysInAttr_load (rtaLenField_within rta) []).mpr staysInAttr_nil⟩
  intro i hi
  have hlt := List.mem_range.mp hi
  apply (staysInAttr_load (rtaLenField_within rta) _).mpr
  refine Effect.stays_cons.mpr ⟨?_, staysInAttr_nil⟩
  intro j hread
  obtain ⟨e, he, hj, hjlt⟩ := hread
  rw [List.mem_singleton.mp he] at hj hjlt
  right
  unfold InPayload
  constructor
  · exact (Nat.le_add_right _ _).trans hj
  · simp only at hjlt
    omega

theorem staysInAttr_printAddr : StaysInAttr m rta (printAddr m rta) :=
  Effect.stays_append.mpr ⟨staysInAttr_printBytes, (staysInAttr_say _ _).mpr staysInAttr_nil⟩

theorem staysInAttr_printIfaFlags :
    StaysInAttr m rta (IfAddrs.printIfaFlags m (rtaData rta)) ↔
      4 ≤ (rtattrAt m rta).payload.length := by
  have hload : (∀ i, (Effect.load ⟨rtaData rta, 4⟩).Reads m i → InHeader rta i ∨ InPayload m rta i) ↔
      4 ≤ (rtattrAt m rta).payload.length := by
    have hin : ∀ e ∈ [(⟨rtaData rta, 4⟩ : Extent)], e.Within (rtaData rta) 4 := by
      intro e he
      rw [List.mem_singleton.mp he]
      exact ⟨le_refl _, le_refl _⟩
    rw [← extents_in_iff hin ⟨_, List.mem_singleton_self _, Nat.zero_lt_succ 3, rfl⟩,
      List.forall_mem_singleton]
    apply forall_congr'
    intro i
    exact and_imp
  rw [IfAddrs.printIfaFlags, StaysInAttr, Effect.stays_flatMap, ← hload]
  constructor
  · intro h
    exact (Effect.stays_cons.mp (h _ List.mem_cons_self)).1
  · intro h x _
    refine Effect.stays_cons.mpr ⟨h, ?_⟩
    split_ifs
    · exact (staysInAttr_say _ _).mpr staysInAttr_nil
    · exact Effect.stays_nil

theorem staysInAttr_word (fmt : List Piece) :
    StaysInAttr m rta [.print fmt [⟨rtaData rta, 4⟩]] ↔
      4 ≤ (rtattrAt m rta).payload.length := by
  apply staysInAttr_print
  · intro e he
    rw [List.mem_singleton.mp he]
    exact ⟨le_refl _, le_refl _⟩
  · exact ⟨_, List.mem_singleton_self _, Nat.zero_lt_succ 3, rfl⟩

/-- Counters are read up to the last one of them. -/
theorem staysInAttr_counters {fmt : List Piece} {width : Nat} (cs : List LinkCounter)
    (last : LinkCounter) (hw : 0 < width) (hlast : last ∈ cs)
    (hle : ∀ c ∈ cs, c.ctorIdx ≤ last.ctorIdx) :
    StaysInAttr m rta [.print fmt (cs.map (LinkCounter.field width (rtaData rta)))] ↔
      width * (last.ctorIdx + 1) ≤ (rtattrAt m rta).payload.length := by
  apply staysInAttr_print
  · intro e he
    obtain ⟨c, hc, rfl⟩ := List.mem_map.mp he
    have hmul := Nat.mul_le_mul_left width (hle c hc)
    exact ⟨Nat.le_add_right _ _, by simp only [LinkCounter.field, Nat.mul_succ]; omega⟩
  · exact ⟨_, List.mem_map_of_mem hlast, hw, by simp only [LinkCounter.field, Nat.mul_succ]; omega⟩

theorem staysInAttr_cacheinfo (fmt : List Piece) :
    StaysInAttr m rta [.print fmt (IfAddrs.cacheinfoFields (rtaData rta))] ↔
      16 ≤ (rtattrAt m rta).payload.length := by
  apply staysInAttr_print
  · simp [IfAddrs.cacheinfoFields, Extent.Within]
  · exact ⟨⟨rtaData rta + 12, 4⟩, by simp [IfAddrs.cacheinfoFields], Nat.zero_lt_succ 3, rfl⟩

theorem staysInAttr_saying (text : String) : StaysInAttr m rta [say text] :=
  (staysInAttr_say text []).mpr staysInAttr_nil

theorem staysInAttr_addr (text : String) : StaysInAttr m rta (say text :: printAddr m rta) :=
  (staysInAttr_say text _).mpr staysInAttr_printAddr

/-- One case of a `switch` over `rta_type`. -/
theorem staysInAttr_case {printer : Printer} {type : Nat} {es fs : List Effect}
    (hcase : StaysInAttr m rta es ↔ (printer.shape type).Fits (rtattrAt m rta).payload)
    (hrest : rtaType m rta ≠ type → (StaysInAttr m rta fs ↔
      (printer.shape (rtaType m rta)).Fits (rtattrAt m rta).payload)) :
    StaysInAttr m rta (if rtaType m rta = type then es else fs) ↔
      (printer.shape (rtaType m rta)).Fits (rtattrAt m rta).payload := by
  by_cases h : rtaType m rta = type
  · rw [if_pos h, h]
    exact hcase
  · rw [if_neg h]
    exact hrest h

end

namespace Printer

theorem linkRta_iff {other : List Effect} {m : Mem} {rta : Nat} (verbose : Bool)
    (hother : StaysInAttr m rta other) : StaysInAttr m rta (linkRta other m rta) ↔
      ((ifEvents verbose).shape (rtaType m rta)).Fits (rtattrAt m rta).payload := by
  refine staysInAttr_case (iff_of_true (staysInAttr_saying _) trivial) ?_
  intro _
  refine staysInAttr_case (iff_of_true (staysInAttr_addr _) trivial) ?_
  intro _
  refine staysInAttr_case (iff_of_true (staysInAttr_addr _) trivial) ?_
  intro _
  refine staysInAttr_case (staysInAttr_string _ _) ?_
  intro hifname
  refine staysInAttr_case (staysInAttr_word _) ?_
  intro hmtu
  refine staysInAttr_case (staysInAttr_word _) ?_
  intro hlink
  refine staysInAttr_case (staysInAttr_string _ _) ?_
  intro hqdisc
  refine staysInAttr_case
    (staysInAttr_counters [.rxPackets, .txPackets] .txPackets (by decide) (by decide) (by decide)) ?_
  intro hstats
  have hshape : (ifEvents verbose).shape (rtaType m rta) = .bytes := by
    simp only [shape, hifname, hqdisc, hmtu, hlink, hstats, or_self, if_false]
  rw [hshape]
  exact iff_of_true hother trivial

theorem ifEvents_iff (verbose : Bool) (m : Mem) (rta : Nat) :
    StaysInAttr m rta (IfEvents.parseRta verbose m rta) ↔
      ((ifEvents verbose).shape (rtaType m rta)).Fits (rtattrAt m rta).payload := by
  have hother : StaysInAttr m rta (if verbose then [say "  other\n"] else []) := by
    cases verbose
    · exact staysInAttr_nil
    · exact staysInAttr_saying _
  have hverbose : StaysInAttr m rta (if verbose then [IfEvents.rtaText rta] else []) := by
    cases verbose
    · exact staysInAttr_nil
    · apply staysInAttr_header
      intro e he
      rcases List.mem_pair.mp he with rfl | rfl
      · exact rtaLenField_within rta
      · exact rtaTypeField_within rta
  rw [IfEvents.parseRta, ← linkRta_iff verbose hother]
  exact Effect.stays_append.trans ((and_iff_right hverbose).trans (staysInAttr_load (rtaTypeField_within rta) _))

theorem ifAddrs_iff (m : Mem) (rta : Nat) : StaysInAttr m rta (IfAddrs.parseRta m rta) ↔
    (ifAddrs.shape (rtaType m rta)).Fits (rtattrAt m rta).payload := by
  rw [IfAddrs.parseRta, staysInAttr_load (rtaTypeField_within rta)]
  refine staysInAttr_case (iff_of_true (staysInAttr_saying _) trivial) ?_
  intro _
  refine staysInAttr_case (iff_of_true (staysInAttr_addr _) trivial) ?_
  intro _
  refine staysInAttr_case (iff_of_true (staysInAttr_addr _) trivial) ?_
  intro _
  refine staysInAttr_case (staysInAttr_string _ _) ?_
  intro hlabel
  refine staysInAttr_case (iff_of_true (staysInAttr_addr _) trivial) ?_
  intro _
  refine staysInAttr_case (iff_of_true (staysInAttr_addr _) trivial) ?_
  intro _
  refine staysInAttr_case (staysInAttr_cacheinfo _) ?_
  intro hcacheinfo
  refine staysInAttr_case (iff_of_true (staysInAttr_addr _) trivial) ?_
  intro _
  refine staysInAttr_case ((staysInAttr_say _ _).trans staysInAttr_printIfaFlags) ?_
  intro hflags
  refine staysInAttr_case (iff_of_true (staysInAttr_saying _) trivial) ?_
  intro _
  refine staysInAttr_case (iff_of_true (staysInAttr_saying _) trivial) ?_
  intro _
  have hshape : ifAddrs.shape (rtaType m rta) = .bytes := by
    simp only [shape, hlabel, hcacheinfo, hflags, if_false]
  rw [hshape]
  refine iff_of_true (staysInAttr_header ?_) trivial
  exact List.forall_mem_singleton.mpr (rtaTypeField_within rta)

theorem ifStats_iff (m : Mem) (rta : Nat) : StaysInAttr m rta (IfStats.parseRta m rta) ↔
    (ifStats.shape (rtaType m rta)).Fits (rtattrAt m rta).payload := by
  rw [IfStats.parseRta, staysInAttr_load (rtaTypeField_within rta)]
  refine staysInAttr_case (staysInAttr_string _ _) ?_
  intro hifname
  refine staysInAttr_case
    (staysInAttr_counters printStats64Args .rxNohandler (by decide) (by decide) (by decide)) ?_
  intro hstats64
  refine staysInAttr_case
    (staysInAttr_counters printStatsArgs .rxNohandler (by decide) (by decide) (by decide)) ?_
  intro hstats
  have hshape : ifStats.shape (rtaType m rta) = .bytes := by
    simp only [shape, hifname, hstats64, hstats, if_false]
  rw [hshape]
  exact iff_of_true staysInAttr_nil trivial

theorem staysInAttr_iff (printer : Printer) (m : Mem) (rta : Nat) :
    StaysInAttr m rta (printer.parseRta m rta) ↔
      (printer.shape (rtaType m rta)).Fits (rtattrAt m rta).payload := by
  cases printer with
  | ifEvents verbose => exact ifEvents_iff verbose m rta
  | ifAddrs => exact ifAddrs_iff m rta
  | ifStats => exact ifStats_iff m rta

/-- What `parse_rta` reads is the attribute's header or lies in its payload exactly if the payload
has what the type is taken for. -/
theorem reads_payload_iff (printer : Printer) (m : Mem) (rta : Nat) :
    (∀ effect ∈ printer.parseRta m rta, ∀ i, effect.Reads m i →
        InHeader rta i ∨ InPayload m rta i) ↔
      (printer.shape (rtaType m rta)).Fits (rtattrAt m rta).payload :=
  staysInAttr_iff printer m rta

section congr

variable {m m' : Mem} {rta : Nat}

theorem printAddr_congr (h : rtaLen m rta = rtaLen m' rta) : printAddr m rta = printAddr m' rta := by
  simp only [printAddr, printBytes, rtaPayload, h]

theorem parseRta_congr (printer : Printer) (hlen : rtaLen m rta = rtaLen m' rta)
    (htype : rtaType m rta = rtaType m' rta)
    (hflags : printer = ifAddrs → rtaType m' rta = IFA_FLAGS →
      m.load ⟨rtaData rta, 4⟩ = m'.load ⟨rtaData rta, 4⟩) :
    printer.parseRta m rta = printer.parseRta m' rta := by
  have haddr := printAddr_congr hlen
  cases printer with
  | ifEvents verbose => simp only [parseRta, IfEvents.parseRta, linkRta, htype, haddr]
  | ifAddrs =>
    by_cases hf : rtaType m' rta = IFA_FLAGS
    · simp only [parseRta, IfAddrs.parseRta, IfAddrs.printIfaFlags, htype, haddr, hflags rfl hf]
    · simp only [parseRta, IfAddrs.parseRta, htype, haddr, if_neg hf]
  | ifStats => simp only [parseRta, IfStats.parseRta, htype]

/-- Where the payload fits, nothing but the attribute's own bytes shows in the output. -/
theorem output_congr_of_fits (printer : Printer)
    (hfits : (printer.shape (rtaType m rta)).Fits (rtattrAt m rta).payload)
    (h : ∀ i, InHeader rta i ∨ InPayload m rta i → m i = m' i) (room : Nat) :
    Effect.output m room (printer.parseRta m rta) =
      Effect.output m' room (printer.parseRta m' rta) := by
  have hheader : ∀ {e : Extent}, e.Within rta sizeofRtattr → m.load e = m'.load e :=
    fun he => Mem.load_congr fun i hi hlt => h i (Or.inl ⟨he.1.trans hi, hlt.trans_le he.2⟩)
  have htype : rtaType m rta = rtaType m' rta := hheader (rtaTypeField_within rta)
  have hlen : rtaLen m rta = rtaLen m' rta := hheader (rtaLenField_within rta)
  have hparse : printer.parseRta m rta = printer.parseRta m' rta := by
    apply parseRta_congr printer hlen htype
    intro hprinter hflags
    rw [hprinter, htype, hflags] at hfits
    have hlong : 4 ≤ (rtattrAt m rta).payload.length := hfits
    apply Mem.load_congr
    intro i hi hlt
    exact h i (Or.inr (inPayload_iff.mpr ⟨hi, hlt.trans_le (Nat.add_le_add_left hlong _)⟩))
  rw [← hparse]
  exact Effect.output_congr (((staysInAttr_iff printer m rta).mpr hfits).mono h) room

end congr

end Printer

/-- An interface name as `set-ifname` sends it, at address 0 before unrelated bytes. -/
def unterminatedName : Mem :=
  Mem.write (fun _ => 0x2e) 0 ([8, 0, 3, 0] ++ [0x65, 0x74, 0x68, 0x30])

/-- `RTA_OK` accepts the attribute, and `%s` reads on behind it. -/
theorem reads_leave_payload : RtaOk unterminatedName 0 8 ∧
    ¬∀ effect ∈ (Printer.ifEvents false).parseRta unterminatedName 0,
      ∀ i, effect.Reads unterminatedName i → InHeader 0 i ∨ InPayload unterminatedName 0 i := by
  refine ⟨by decide +kernel, ?_⟩
  intro h
  have hfits := (Printer.ifEvents_iff false unterminatedName 0).mp h
  exact absurd (show 0 ∈ (rtattrAt unterminatedName 0).payload from hfits) (by decide +kernel)

end SnippetsC.Netlink
