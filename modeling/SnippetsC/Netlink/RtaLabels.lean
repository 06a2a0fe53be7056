import SnippetsC.Netlink.Printers
import Mathlib.Data.Nat.Bitwise

namespace SnippetsC.Netlink

/-! The labels of `if-rtas`, and which attributes share one. -/

namespace IfRtas

/-- The label `parse_rta` prints for the attribute at `rta`. -/
def label (m : Mem) (rta : Nat) : Option String := (parseRta m rta).findSome? Effect.label

/-- The first eight types, which also `if-events` prints. -/
def linkLabels : List (Nat × String) :=
  [(IFLA_UNSPEC, "  unspec\n"), (IFLA_ADDRESS, "  hw addr: "), (IFLA_BROADCAST, "  bc addr: "),
    (IFLA_IFNAME, "  ifname: "), (IFLA_MTU, "  mtu: "), (IFLA_LINK, "  link: "),
    (IFLA_QDISC, "  qdisc: "), (IFLA_STATS, "  stats: \n    rx pkts: ")]

/-- The table of `parse_rta`. -/
def labels : List (Nat × String) := linkLabels ++ rtaLabels

def typeLabel (type : Nat) : String := (labels.lookup type).getD "  other\n"

/-- Behind the load of its type, `parse_rta` prints the label of that type. -/
theorem parseRta_head (m : Mem) (rta : Nat) : ∃ e es,
    parseRta m rta = .load (rtaTypeField rta) :: e :: es ∧
      e.label = some (typeLabel (rtaType m rta)) := by
  rw [parseRta]
  unfold linkRta
  split_ifs with h0 h1 h2 h3 h4 h5 h6 h7
  · exact ⟨_, _, rfl, by rw [h0]; rfl⟩
  · exact ⟨_, _, rfl, by rw [h1]; rfl⟩
  · exact ⟨_, _, rfl, by rw [h2]; rfl⟩
  · exact ⟨_, _, rfl, by rw [h3]; rfl⟩
  · exact ⟨_, _, rfl, by rw [h4]; rfl⟩
  · exact ⟨_, _, rfl, by rw [h5]; rfl⟩
  · exact ⟨_, _, rfl, by rw [h6]; rfl⟩
  · exact ⟨_, _, rfl, by rw [h7]; rfl⟩
  · have hnone : linkLabels.lookup (rtaType m rta) = none := by
      simp [linkLabels, h0, h1, h2, h3, h4, h5, h6, h7]
    refine ⟨_, _, rfl, ?_⟩
    rw [typeLabel, labels, List.lookup_append, hnone, Option.none_or]
    rfl

theorem label_eq (m : Mem) (rta : Nat) : label m rta = some (typeLabel (rtaType m rta)) := by
  obtain ⟨e, es, heffects, he⟩ := parseRta_head m rta
  have hload : (Effect.load (rtaTypeField rta)).label = none := rfl
  rw [label, heffects, List.findSome?_cons, hload, List.findSome?_cons, he]

/-- What is printed for an attribute begins with its label. -/
theorem output_label {m : Mem} {room rta : Nat} {out : String}
    (h : Effect.output m room (parseRta m rta) = some out) :
    ∃ rest, out = typeLabel (rtaType m rta) ++ rest := by
  obtain ⟨e, es, heffects, he⟩ := parseRta_head m rta
  rw [heffects, Effect.output_load, Effect.output] at h
  obtain ⟨first, hfirst, hrest⟩ := Option.bind_eq_some_iff.mp h
  obtain ⟨later, -, rfl⟩ := Option.map_eq_some_iff.mp hrest
  obtain ⟨rest, rfl⟩ := Effect.text_label hfirst he
  exact ⟨_, String.append_assoc ..⟩

/-! The table. -/

/-- Its types are the first 56. -/
theorem labels_types : labels.map Prod.fst = List.range 56 := rfl

/-- The two queue counts. -/
def IsQueues (type : Nat) : Prop := type = IFLA_NUM_TX_QUEUES ∨ type = IFLA_NUM_RX_QUEUES

instance (type : Nat) : Decidable (IsQueues type) := inferInstanceAs (Decidable (_ ∨ _))

/-- Where a label of the table first stands is the type it belongs to, but for the second of the
queue counts. -/
theorem idxOf_typeLabel : ∀ t < 56, (labels.map Prod.snd).idxOf (typeLabel t) =
    if t = IFLA_NUM_RX_QUEUES then IFLA_NUM_TX_QUEUES else t := by
  decide +kernel

/-- Only the queue counts share a label. -/
theorem typeLabel_inj {t u : Nat} (ht : t < 56) (hu : u < 56)
    (h : typeLabel t = typeLabel u) : t = u ∨ (IsQueues t ∧ IsQueues u) := by
  have hidx := congrArg (fun l => (labels.map Prod.snd).idxOf l) h
  simp only [idxOf_typeLabel t ht, idxOf_typeLabel u hu] at hidx
  unfold IsQueues
  split_ifs at hidx with hrx hrx' hrx'
  · exact .inl (hrx.trans hrx'.symm)
  · exact .inr ⟨.inr hrx, .inl hidx.symm⟩
  · exact .inr ⟨.inl hidx, .inr hrx'⟩
  · exact .inl hidx

theorem typeLabel_ne_other {t : Nat} (h : t < 56) : typeLabel t ≠ "  other\n" := by
  have hall : ∀ t < 56, typeLabel t ≠ "  other\n" := by decide +kernel
  exact hall t h

theorem typeLabel_other {t : Nat} (h : 56 ≤ t) : typeLabel t = "  other\n" := by
  have hnone : labels.lookup t = none := by
    rw [List.lookup_eq_none_iff]
    intro x hx
    have hmem : x.1 ∈ List.range 56 := labels_types ▸ List.mem_map_of_mem hx
    rw [List.mem_range] at hmem
    exact bne_iff_ne.mpr (by omega)
  rw [typeLabel, hnone]
  rfl

/-- The label printed for an attribute. -/
def labelOf (a : Rtattr) : Option String := label (Mem.write (fun _ => 0) 0 a.data) 0

theorem labelOf_eq (a : Rtattr) : labelOf a = some (typeLabel a.type.toNat) := by
  obtain ⟨-, hrest⟩ := Mem.holds_append.mp (Mem.holds_write (fun _ => 0) 0 a.data)
  obtain ⟨htype, -⟩ := Mem.holds_append.mp hrest
  rw [leBytes_length] at htype
  have hload : rtaType (Mem.write (fun _ => 0) 0 a.data) 0 = a.type.toNat :=
    (Mem.load16_of_holds htype).trans (Nat.mod_eq_of_lt a.type.toNat_lt)
  rw [labelOf, label_eq, hload]

end IfRtas

/-! The flag bit of nested attributes. -/

namespace Rtattr

def Nested (a : Rtattr) : Prop := a.type &&& .ofNat NLA_F_NESTED ≠ 0

instance (a : Rtattr) : Decidable a.Nested := inferInstanceAs (Decidable (_ ≠ _))

def setNested (a : Rtattr) : Rtattr := { a with type := a.type ||| .ofNat NLA_F_NESTED }

/-- The type without the bit. -/
def maskedType (a : Rtattr) : UInt16 := a.type &&& ~~~(.ofNat NLA_F_NESTED)

def clearNested (a : Rtattr) : Rtattr := { a with type := a.maskedType }

/-- Apart from the bit, the type is one of the table. -/
def InTable (a : Rtattr) : Prop := a.maskedType.toNat ∈ IfRtas.labels.map Prod.fst

instance (a : Rtattr) : Decidable a.InTable := inferInstanceAs (Decidable (_ ∈ _))

theorem nested_iff (a : Rtattr) : a.Nested ↔ 32768 ≤ a.type.toNat := by
  have hlt := a.type.toNat_lt
  have hbit : a.type &&& .ofNat NLA_F_NESTED = 0 ↔ a.type.toNat.testBit 15 = false := by
    rw [← UInt16.toNat_inj, UInt16.toNat_and]
    change a.type.toNat &&& 2 ^ 15 = 0 ↔ _
    rw [Nat.and_two_pow]
    cases a.type.toNat.testBit 15 <;> simp
  rw [Nested, ne_eq, hbit, Nat.testBit_eq_decide_div_mod_eq, decide_eq_false_iff_not]
  omega

theorem maskedType_toNat (a : Rtattr) : a.maskedType.toNat = a.type.toNat % 32768 := by
  have hmask : (~~~(UInt16.ofNat NLA_F_NESTED)).toNat = 2 ^ 15 - 1 := by decide
  rw [maskedType, UInt16.toNat_and, hmask, Nat.and_two_pow_sub_one_eq_mod]

theorem inTable_iff (a : Rtattr) : a.InTable ↔ a.type.toNat % 32768 < 56 := by
  rw [InTable, IfRtas.labels_types, List.mem_range, maskedType_toNat]

theorem le_setNested (a : Rtattr) : 32768 ≤ a.setNested.type.toNat := by
  rw [setNested, UInt16.toNat_or]
  exact Nat.right_le_or

end Rtattr

section labels

open IfRtas

variable {a b : Rtattr}

/-- With the bit set, every type is an unknown one. -/
theorem labelOf_of_nested (h : 32768 ≤ a.type.toNat) : labelOf a = some "  other\n" := by
  rw [labelOf_eq, typeLabel_other (by omega)]

theorem labelOf_ne_other (h : a.type.toNat < 56) : labelOf a ≠ some "  other\n" := by
  rw [labelOf_eq, ne_eq, Option.some_inj]
  exact typeLabel_ne_other h

/-- Setting or clearing the bit always changes a label. -/
theorem labelOf_setNested_ne (h : a.InTable) :
    ¬(labelOf a.setNested = labelOf a ∧ labelOf a.clearNested = labelOf a) := by
  intro hsame
  have hclear : a.clearNested.type.toNat < 56 := (a.maskedType_toNat).trans_lt (a.inTable_iff.mp h)
  rw [labelOf_of_nested a.le_setNested] at hsame
  rw [← hsame.1] at hsame
  exact labelOf_ne_other hclear hsame.2

/-- A plain label belongs to one type of the table, with the bit clear. -/
theorem maskedType_of_label (ha : a.InTable) (hb : b.InTable) (hplain : ¬a.Nested)
    (hqueues : ¬IsQueues a.type.toNat) (h : labelOf b = labelOf a) :
    b.maskedType = a.maskedType := by
  have hlt : a.type.toNat < 56 := by
    rw [Rtattr.nested_iff] at hplain
    rw [Rtattr.inTable_iff] at ha
    omega
  have hnot : ¬32768 ≤ b.type.toNat := by
    intro hle
    rw [labelOf_of_nested hle] at h
    exact labelOf_ne_other hlt h.symm
  have hltb : b.type.toNat < 56 := by
    rw [Rtattr.inTable_iff] at hb
    omega
  rw [labelOf_eq, labelOf_eq, Option.some_inj] at h
  rcases typeLabel_inj hltb hlt h with heq | ⟨-, hq⟩
  · rw [Rtattr.maskedType, Rtattr.maskedType, UInt16.toNat_inj.mp heq]
  · exact absurd hq hqueues

/-- `b` is of a type of the table and has the label of `a`, but its type without the bit differs. -/
def Confused (a b : Rtattr) : Prop :=
  b.InTable ∧ labelOf b = labelOf a ∧ b.maskedType ≠ a.maskedType

theorem confused_retype {t : UInt16} (ht : t.toNat % 32768 < 56)
    (hl : typeLabel t.toNat = typeLabel a.type.toNat)
    (hne : t.toNat % 32768 ≠ a.type.toNat % 32768) : Confused a { a with type := t } := by
  refine ⟨(Rtattr.inTable_iff _).mpr ht, ?_, ?_⟩
  · rw [labelOf_eq, labelOf_eq, hl]
  · intro heq
    have hval := congrArg UInt16.toNat heq
    rw [Rtattr.maskedType_toNat, Rtattr.maskedType_toNat] at hval
    exact hne hval

theorem exists_confused (h : a.Nested ∨ IsQueues a.type.toNat) : ∃ b, Confused a b := by
  rcases h with hnested | htx | hrx
  · have hle := a.nested_iff.mp hnested
    have hother := typeLabel_other (Nat.le_trans (by decide : 56 ≤ 32768) hle)
    by_cases hzero : a.type.toNat % 32768 = 0
    · exact ⟨_, confused_retype (t := 0x8001) (by decide) (hother ▸ typeLabel_other (by decide))
        (by rw [hzero]; decide)⟩
    · exact ⟨_, confused_retype (t := 0x8000) (by decide) (hother ▸ typeLabel_other (by decide))
        (Ne.symm hzero)⟩
  · exact ⟨_, confused_retype (t := .ofNat IFLA_NUM_RX_QUEUES) (by decide) (by rw [htx]; rfl)
      (by rw [htx]; decide)⟩
  · exact ⟨_, confused_retype (t := .ofNat IFLA_NUM_TX_QUEUES) (by decide) (by rw [hrx]; rfl)
      (by rw [hrx]; decide)⟩

theorem map_maskedType_of_labels {as bs : List Rtattr} (ha : ∀ a ∈ as, a.InTable)
    (hb : ∀ b ∈ bs, b.InTable) (hplain : ∀ a ∈ as, ¬a.Nested ∧ ¬IsQueues a.type.toNat)
    (h : bs.map labelOf = as.map labelOf) : bs.map Rtattr.maskedType = as.map Rtattr.maskedType := by
  induction as generalizing bs with
  | nil =>
    rw [List.map_nil, List.map_eq_nil_iff] at h
    rw [h]
  | cons a as ih =>
    cases bs with
    | nil => cases h
    | cons b bs =>
      obtain ⟨hhead, htail⟩ := List.cons.inj h
      rw [List.forall_mem_cons] at ha hb hplain
      rw [List.map_cons, List.map_cons, ih ha.2 hb.2 hplain.2 htail,
        maskedType_of_label ha.1 hb.1 hplain.1.1 hplain.1.2 hhead]

/-- The labels of a list of attributes tell its types exactly if none of them has the nested bit or
is a queue count. Setting or clearing the bit keeps the labels of the empty list only. -/
theorem rtaLabels_tell_iff (as : List Rtattr) (h : ∀ a ∈ as, a.InTable) :
    ((∀ bs : List Rtattr, (∀ b ∈ bs, b.InTable) → bs.map labelOf = as.map labelOf →
        bs.map Rtattr.maskedType = as.map Rtattr.maskedType) ↔
      ∀ a ∈ as, ¬a.Nested ∧ ¬IsQueues a.type.toNat) ∧
    ((∀ a ∈ as, labelOf a.setNested = labelOf a ∧ labelOf a.clearNested = labelOf a) ↔
      as = []) := by
  refine ⟨⟨?_, ?_⟩, ?_, ?_⟩
  · intro htell a ha
    by_contra hbad
    rw [← not_or, not_not] at hbad
    obtain ⟨b, hin, hlabel, hne⟩ := exists_confused hbad
    -- the same list with `b` in place of `a`
    have hswap := htell (as.map fun x => if x = a then b else x)
    rw [List.forall_mem_map, List.map_map, List.map_map] at hswap
    have hsame := hswap
      (by
        intro x hx
        split_ifs
        · exact hin
        · exact h x hx)
      (by
        apply List.map_congr_left
        intro x hx
        rw [Function.comp_apply]
        split_ifs with hxa
        · rw [hxa, hlabel]
        · rfl)
    have hmask := List.map_inj_left.mp hsame a ha
    rw [Function.comp_apply, if_pos rfl] at hmask
    exact hne hmask
  · intro hplain bs hb hlabels
    exact map_maskedType_of_labels h hb hplain hlabels
  · intro hkeep
    rw [List.eq_nil_iff_forall_not_mem]
    intro a ha
    exact labelOf_setNested_ne (h a ha) (hkeep a ha)
  · intro hnil
    rw [hnil]
    exact List.forall_mem_nil _

/-- The link info of `add-veth`, whose type has the bit set. -/
def nestedLinkinfo : Rtattr := ⟨.ofNat (IFLA_LINKINFO ||| NLA_F_NESTED), [8, 0, 1, 0]⟩

theorem rtaLabels_tell_iff_linkinfo :
    (∀ a ∈ [nestedLinkinfo], a.InTable) ∧
    ¬∀ bs : List Rtattr, (∀ b ∈ bs, b.InTable) →
      bs.map labelOf = [nestedLinkinfo].map labelOf →
        bs.map Rtattr.maskedType = [nestedLinkinfo].map Rtattr.maskedType := by
  have htable : ∀ a ∈ [nestedLinkinfo], a.InTable := by decide
  refine ⟨htable, ?_⟩
  rw [(rtaLabels_tell_iff [nestedLinkinfo] htable).1]
  decide

/-- Both queue counts are the rx queues, and the link info of `add-veth` is something else. -/
theorem rtaLabels_confused :
    (labelOf ⟨.ofNat IFLA_NUM_TX_QUEUES, []⟩ = labelOf ⟨.ofNat IFLA_NUM_RX_QUEUES, []⟩ ∧
      (⟨.ofNat IFLA_NUM_TX_QUEUES, []⟩ : Rtattr).maskedType ≠
        (⟨.ofNat IFLA_NUM_RX_QUEUES, []⟩ : Rtattr).maskedType) ∧
    labelOf nestedLinkinfo = some "  other\n" ∧
      labelOf nestedLinkinfo.clearNested = some "  linkinfo\n" := by
  simp only [labelOf_eq]
  exact ⟨⟨by decide +kernel, by decide⟩, by decide +kernel, by decide +kernel⟩

end labels

end SnippetsC.Netlink
