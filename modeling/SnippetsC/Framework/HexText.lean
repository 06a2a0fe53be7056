import Mathlib.Data.List.Basic
import Mathlib.Data.List.Chain
import Mathlib.Tactic.Common

namespace SnippetsC

/-! Bytes written one after the other in hexadecimal without leading zeros, and which byte strings
can be told from this text among those of the same length. -/

namespace HexText

/-- The byte takes one digit. -/
def OneDigit (b : UInt8) : Prop := b.toNat < 16

instance (b : UInt8) : Decidable (OneDigit b) := inferInstanceAs (Decidable (_ < _))

def byteDigits (b : UInt8) : List Nat :=
  if OneDigit b then [b.toNat] else [b.toNat / 16, b.toNat % 16]

def digits (bs : List UInt8) : List Nat := bs.flatMap byteDigits

/-- No other byte string of the same length has the same digits. -/
def Identifies (as : List UInt8) : Prop :=
  ∀ bs : List UInt8, bs.length = as.length → digits bs = digits as → bs = as

/-- A nonzero byte of one digit stands before bytes of one digit only. -/
def NoMergeLeft (as : List UInt8) : Prop :=
  as.Pairwise fun a b => OneDigit a → a ≠ 0 → OneDigit b

/-- A byte of one digit has a byte that ends in the digit zero directly before it. -/
def NoMergeRight (as : List UInt8) : Prop :=
  as.IsChain fun a b => OneDigit b → a.toNat % 16 = 0

/-- `NoMergeLeft` for all bytes, `NoMergeRight` from the first byte of two digits on. -/
def Settled (as : List UInt8) : Prop :=
  NoMergeLeft as ∧ NoMergeRight (as.dropWhile fun a => OneDigit a)

instance (as : List UInt8) : Decidable (Settled as) := by
  unfold Settled NoMergeLeft NoMergeRight
  infer_instance

section digits

variable {b : UInt8} {bs : List UInt8}

theorem digits_cons_one (h : OneDigit b) : digits (b :: bs) = b.toNat :: digits bs := by
  rw [digits, List.flatMap_cons, byteDigits, if_pos h]
  rfl

theorem digits_cons_two (h : ¬OneDigit b) :
    digits (b :: bs) = b.toNat / 16 :: b.toNat % 16 :: digits bs := by
  rw [digits, List.flatMap_cons, byteDigits, if_neg h]
  rfl

theorem length_le_digits (bs : List UInt8) : bs.length ≤ (digits bs).length := by
  induction bs with
  | nil => exact le_refl _
  | cons b bs ih =>
    by_cases h : OneDigit b
    · rw [digits_cons_one h]
      exact Nat.succ_le_succ ih
    · rw [digits_cons_two h]
      exact (Nat.succ_le_succ ih).trans (Nat.le_succ _)

theorem digits_length_of_one (h : ∀ b ∈ bs, OneDigit b) : (digits bs).length = bs.length := by
  induction bs with
  | nil => rfl
  | cons b bs ih =>
    obtain ⟨hb, hbs⟩ := List.forall_mem_cons.mp h
    rw [digits_cons_one hb, List.length_cons, ih hbs, List.length_cons]

theorem digits_lt (bs : List UInt8) : ∀ d ∈ digits bs, d < 16 := by
  induction bs with
  | nil => exact List.forall_mem_nil _
  | cons b bs ih =>
    have hb := b.toNat_lt
    by_cases h : OneDigit b
    · rw [digits_cons_one h, List.forall_mem_cons]
      exact ⟨h, ih⟩
    · rw [digits_cons_two h, List.forall_mem_cons, List.forall_mem_cons]
      exact ⟨by omega, by omega, ih⟩

/-- The first digit of a byte of two digits is not zero. -/
theorem head_pos (h : ¬OneDigit b) : 0 < b.toNat / 16 :=
  Nat.div_pos (Nat.not_lt.mp h) (by decide)

/-- Nor is a byte whose only digit is the first one of a byte of two. -/
theorem ne_zero_of_head {a : UInt8} (h : ¬OneDigit b) (hhead : b.toNat / 16 = a.toNat) : a ≠ 0 := by
  intro hz
  have hpos := head_pos h
  rw [hhead, hz] at hpos
  exact absurd hpos (by decide)

theorem eq_of_digits {a b : UInt8} (hhead : a.toNat / 16 = b.toNat / 16)
    (hlast : a.toNat % 16 = b.toNat % 16) : a = b := by
  apply UInt8.toNat_inj.mp
  rw [← Nat.div_add_mod a.toNat 16, ← Nat.div_add_mod b.toNat 16, hhead, hlast]

end digits

/-! Settled bytes cannot be split otherwise. -/

/-- From a byte of two digits on, other bytes with the same digits are more or the same. -/
def Minimal (as : List UInt8) : Prop :=
  ∀ bs, digits bs = digits as → as.length ≤ bs.length ∧ (bs.length = as.length → bs = as)

/-- A digit that is split off from the byte before makes one byte more. -/
def MinimalAfter (q : Nat) (as : List UInt8) : Prop :=
  ∀ bs, digits bs = q :: digits as → as.length + 1 ≤ bs.length

theorem minimal_cons {a : UInt8} {as : List UInt8} (hleft : NoMergeLeft (a :: as))
    (hright : NoMergeRight (a :: as)) (ih : Minimal as) (ihAfter : MinimalAfter (a.toNat % 16) as) :
    Minimal (a :: as) := by
  intro bs h
  cases bs with
  | nil =>
    by_cases ha : OneDigit a
    · rw [digits_cons_one ha] at h
      cases h
    · rw [digits_cons_two ha] at h
      cases h
  | cons b bs =>
    simp only [List.length_cons]
    by_cases ha : OneDigit a
    · by_cases hb : OneDigit b
      · -- the same byte, then the rest
        rw [digits_cons_one ha, digits_cons_one hb] at h
        obtain ⟨hhead, htail⟩ := List.cons.inj h
        obtain ⟨hle, heq⟩ := ih bs htail
        refine ⟨Nat.succ_le_succ hle, ?_⟩
        intro hlen
        rw [UInt8.toNat_inj.mp hhead, heq (Nat.succ.inj hlen)]
      · -- `b` would take the digit of `a` and the first one behind it
        rw [digits_cons_one ha, digits_cons_two hb] at h
        obtain ⟨hhead, htail⟩ := List.cons.inj h
        have hpos := head_pos hb
        cases as with
        | nil => cases htail
        | cons c cs =>
          have hc : ¬OneDigit c := by
            intro hc
            have hz := (List.isChain_cons_cons.mp hright).1 hc
            unfold OneDigit at ha
            omega
          have ha0 : a ≠ 0 := ne_zero_of_head hb hhead
          exact absurd ((List.pairwise_cons.mp hleft).1 c List.mem_cons_self ha ha0) hc
    · by_cases hb : OneDigit b
      · rw [digits_cons_two ha, digits_cons_one hb] at h
        have hafter := ihAfter bs (List.cons.inj h).2
        exact ⟨by omega, fun hlen => by omega⟩
      · rw [digits_cons_two ha, digits_cons_two hb] at h
        obtain ⟨hhead, htail⟩ := List.cons.inj h
        obtain ⟨hlast, hrest⟩ := List.cons.inj htail
        obtain ⟨hle, heq⟩ := ih bs hrest
        refine ⟨Nat.succ_le_succ hle, ?_⟩
        intro hlen
        rw [eq_of_digits hhead hlast, heq (Nat.succ.inj hlen)]

theorem minimalAfter_cons {x a : UInt8} {as : List UInt8} (hright : NoMergeRight (x :: a :: as))
    (h : Minimal (a :: as)) (ihAfter : MinimalAfter (a.toNat % 16) as) :
    MinimalAfter (x.toNat % 16) (a :: as) := by
  intro bs hdigits
  cases bs with
  | nil => cases hdigits
  | cons b bs =>
    by_cases hb : OneDigit b
    · rw [digits_cons_one hb] at hdigits
      exact Nat.succ_le_succ (h bs (List.cons.inj hdigits).2).1
    · rw [digits_cons_two hb] at hdigits
      obtain ⟨hhead, htail⟩ := List.cons.inj hdigits
      have hpos := head_pos hb
      have ha : ¬OneDigit a := by
        intro ha
        have hz := (List.isChain_cons_cons.mp hright).1 ha
        omega
      rw [digits_cons_two ha] at htail
      exact Nat.succ_le_succ (ihAfter bs (List.cons.inj htail).2)

theorem minimal_of_noMerge {as : List UInt8} (hleft : NoMergeLeft as) (hright : NoMergeRight as) :
    Minimal as ∧ ∀ x, NoMergeRight (x :: as) → MinimalAfter (x.toNat % 16) as := by
  induction as with
  | nil =>
    constructor
    · intro bs h
      have hlen := length_le_digits bs
      rw [h] at hlen
      exact ⟨Nat.zero_le _, fun _ => List.length_eq_zero_iff.mp (Nat.le_zero.mp hlen)⟩
    · intro x _ bs h
      cases bs with
      | nil => cases h
      | cons b bs => exact Nat.succ_le_succ (Nat.zero_le _)
  | cons a as ih =>
    obtain ⟨hmin, hafter⟩ := ih (List.pairwise_cons.mp hleft).2 hright.tail
    have hcons := minimal_cons hleft hright hmin (hafter a hright)
    exact ⟨hcons, fun x hx => minimalAfter_cons hx hcons (hafter a hright)⟩

theorem identifies_of_settled {as : List UInt8} (h : Settled as) : Identifies as := by
  induction as with
  | nil =>
    intro bs hlen _
    exact List.length_eq_zero_iff.mp hlen
  | cons a as ih =>
    obtain ⟨hleft, hright⟩ := h
    intro bs hlen hdigits
    by_cases ha : OneDigit a
    · rw [List.dropWhile_cons_of_pos (by simpa using ha)] at hright
      cases bs with
      | nil => cases hlen
      | cons b bs =>
        by_cases hb : OneDigit b
        · rw [digits_cons_one ha, digits_cons_one hb] at hdigits
          obtain ⟨hhead, htail⟩ := List.cons.inj hdigits
          rw [UInt8.toNat_inj.mp hhead,
            ih ⟨(List.pairwise_cons.mp hleft).2, hright⟩ bs (Nat.succ.inj hlen) htail]
        · -- `a` is not zero, so all that follows has one digit and `bs` would be too short
          have hcount := congrArg List.length hdigits
          rw [digits_cons_two hb] at hdigits hcount
          rw [digits_cons_one ha] at hdigits hcount
          have ha0 : a ≠ 0 := ne_zero_of_head hb (List.cons.inj hdigits).1
          have hone : ∀ c ∈ as, OneDigit c :=
            fun c hc => (List.pairwise_cons.mp hleft).1 c hc ha ha0
          have hle := length_le_digits bs
          simp only [List.length_cons, digits_length_of_one hone] at hcount hlen
          omega
    · rw [List.dropWhile_cons_of_neg (by simpa using ha)] at hright
      exact ((minimal_of_noMerge hleft hright).1 bs hdigits).2 hlen

/-! Bytes that are not settled can be split otherwise. -/

/-- Some other byte string of the same length has the same digits. -/
def Ambiguous (as : List UInt8) : Prop :=
  ∃ bs : List UInt8, bs.length = as.length ∧ digits bs = digits as ∧ bs ≠ as

theorem not_identifies_of_ambiguous {as : List UInt8} (h : Ambiguous as) : ¬Identifies as := by
  intro hid
  obtain ⟨bs, hlen, hdigits, hne⟩ := h
  exact hne (hid bs hlen hdigits)

theorem ambiguous_cons {a : UInt8} {as : List UInt8} (h : Ambiguous as) : Ambiguous (a :: as) := by
  obtain ⟨bs, hlen, hdigits, hne⟩ := h
  refine ⟨a :: bs, congrArg Nat.succ hlen, ?_, fun heq => hne (List.cons.inj heq).2⟩
  exact congrArg (byteDigits a ++ ·) hdigits

/-- The byte that two digits make. -/
def pair (p q : Nat) : UInt8 := UInt8.ofNat (16 * p + q)

section pair

variable {p q : Nat}

theorem toNat_pair (hp : p < 16) (hq : q < 16) : (pair p q).toNat = 16 * p + q := by
  rw [pair, UInt8.toNat_ofNat']
  exact Nat.mod_eq_of_lt (by omega)

theorem digits_pair (hpos : 0 < p) (hp : p < 16) (hq : q < 16) (bs : List UInt8) :
    digits (pair p q :: bs) = p :: q :: digits bs := by
  have hval := toNat_pair hp hq
  have htwo : ¬OneDigit (pair p q) := by
    unfold OneDigit
    omega
  have hdiv : (pair p q).toNat / 16 = p := by omega
  have hmod : (pair p q).toNat % 16 = q := by omega
  rw [digits_cons_two htwo, hdiv, hmod]

/-- The byte of a single digit. -/
theorem digits_single (hq : q < 16) (bs : List UInt8) :
    digits (pair 0 q :: bs) = q :: digits bs := by
  have hval : (pair 0 q).toNat = q := (toNat_pair (by decide) hq).trans (by omega)
  have hone : OneDigit (pair 0 q) := by
    unfold OneDigit
    omega
  rw [digits_cons_one hone, hval]

end pair

theorem head_lt (b : UInt8) : b.toNat / 16 < 16 := by
  have h := b.toNat_lt
  omega

theorem last_lt (b : UInt8) : b.toNat % 16 < 16 := Nat.mod_lt _ (by decide)

/-- The first digit can be split off without a change of the length, if some byte has two. -/
theorem exists_digit_off {as : List UInt8} (h : ∃ c ∈ as, ¬OneDigit c) :
    ∃ d bs, d < 16 ∧ bs.length = as.length ∧ digits as = d :: digits bs := by
  induction as with
  | nil =>
    obtain ⟨c, hc, -⟩ := h
    cases hc
  | cons a as ih =>
    by_cases ha : OneDigit a
    · obtain ⟨c, hc, htwo⟩ := h
      rcases List.mem_cons.mp hc with rfl | hc
      · exact absurd ha htwo
      · obtain ⟨d, bs, hd, hlen, hdigits⟩ := ih ⟨c, hc, htwo⟩
        refine ⟨a.toNat, pair 0 d :: bs, ha, congrArg Nat.succ hlen, ?_⟩
        rw [digits_cons_one ha, digits_single hd, hdigits]
    · refine ⟨a.toNat / 16, pair 0 (a.toNat % 16) :: as, head_lt a, rfl, ?_⟩
      rw [digits_cons_two ha, digits_single (last_lt a)]

theorem ambiguous_of_mergeLeft {as : List UInt8} (h : ¬NoMergeLeft as) : Ambiguous as := by
  induction as with
  | nil => exact absurd List.Pairwise.nil h
  | cons a as ih =>
    by_cases htail : NoMergeLeft as
    · have hhead : ¬∀ c ∈ as, OneDigit a → a ≠ 0 → OneDigit c :=
        fun hall => h (List.pairwise_cons.mpr ⟨hall, htail⟩)
      simp only [not_forall, exists_prop] at hhead
      obtain ⟨c, hc, ha, ha0, htwo⟩ := hhead
      obtain ⟨d, bs, hd, hlen, hdigits⟩ := exists_digit_off ⟨c, hc, htwo⟩
      have hpos : 0 < a.toNat := by
        apply Nat.pos_of_ne_zero
        intro hz
        exact ha0 (UInt8.toNat_inj.mp hz)
      refine ⟨pair a.toNat d :: bs, congrArg Nat.succ hlen, ?_, ?_⟩
      · rw [digits_pair hpos ha hd, digits_cons_one ha, hdigits]
      · intro heq
        have hval := toNat_pair ha hd
        rw [(List.cons.inj heq).1] at hval
        omega
    · exact ambiguous_cons (ih htail)

theorem pair_head_ne {a : UInt8} (ha : ¬OneDigit a) : pair 0 (a.toNat / 16) ≠ a := by
  intro heq
  have hval : (pair 0 (a.toNat / 16)).toNat = 16 * 0 + a.toNat / 16 :=
    toNat_pair (by decide) (head_lt a)
  rw [heq] at hval
  unfold OneDigit at ha
  omega

theorem not_noMergeRight_cons {a b : UInt8} {bs : List UInt8} (h : ¬NoMergeRight (a :: b :: bs)) :
    ¬NoMergeRight (b :: bs) ∨ OneDigit b ∧ 0 < a.toNat % 16 := by
  by_cases htail : NoMergeRight (b :: bs)
  · right
    have hhead : ¬(OneDigit b → a.toNat % 16 = 0) :=
      fun hall => h (List.isChain_cons_cons.mpr ⟨hall, htail⟩)
    obtain ⟨hb, hz⟩ := Classical.not_imp.mp hhead
    exact ⟨hb, Nat.pos_of_ne_zero hz⟩
  · exact Or.inl htail

/-- A byte of one digit can take the last digit of a byte of two. -/
theorem ambiguous_shift {a b : UInt8} {bs : List UInt8} (ha : ¬OneDigit a) (hb : OneDigit b)
    (hpos : 0 < a.toNat % 16) : Ambiguous (a :: b :: bs) := by
  refine ⟨pair 0 (a.toNat / 16) :: pair (a.toNat % 16) b.toNat :: bs, rfl, ?_, ?_⟩
  · rw [digits_single (head_lt a), digits_pair hpos (last_lt a) hb, digits_cons_two ha,
      digits_cons_one hb]
  · intro heq
    exact pair_head_ne ha (List.cons.inj heq).1

/-- Where a byte of one digit can take the last digit of the byte before it, other bytes with the
same digits are as many or one less. -/
theorem mergeRight_cases {as : List UInt8} (h : ¬NoMergeRight as) :
    Ambiguous as ∨ ∃ bs : List UInt8, bs.length + 1 = as.length ∧ digits bs = digits as := by
  induction as with
  | nil => exact absurd List.IsChain.nil h
  | cons a as ih =>
    cases as with
    | nil => exact absurd (List.IsChain.singleton a) h
    | cons b bs =>
      rcases not_noMergeRight_cons h with htail | hhead
      · rcases ih htail with hamb | hshort
        · exact Or.inl (ambiguous_cons hamb)
        · obtain ⟨cs, hlen, hdigits⟩ := hshort
          exact Or.inr ⟨a :: cs, congrArg Nat.succ hlen, congrArg (byteDigits a ++ ·) hdigits⟩
      · obtain ⟨hb, hpos⟩ := hhead
        by_cases ha : OneDigit a
        · have hmod : a.toNat % 16 = a.toNat := Nat.mod_eq_of_lt ha
          refine Or.inr ⟨pair a.toNat b.toNat :: bs, rfl, ?_⟩
          rw [digits_pair (hmod ▸ hpos) ha hb, digits_cons_one ha, digits_cons_one hb]
        · exact Or.inl (ambiguous_shift ha hb hpos)

/-- Behind a byte of two digits, which makes up for a merge when it is split. -/
theorem ambiguous_of_mergeRight {a : UInt8} {as : List UInt8} (ha : ¬OneDigit a)
    (h : ¬NoMergeRight (a :: as)) : Ambiguous (a :: as) := by
  cases as with
  | nil => exact absurd (List.IsChain.singleton a) h
  | cons b bs =>
    rcases not_noMergeRight_cons h with htail | hhead
    · rcases mergeRight_cases htail with hamb | hshort
      · exact ambiguous_cons hamb
      · obtain ⟨cs, hlen, hdigits⟩ := hshort
        refine ⟨pair 0 (a.toNat / 16) :: pair 0 (a.toNat % 16) :: cs, ?_, ?_, ?_⟩
        · simp only [List.length_cons] at hlen ⊢
          omega
        · rw [digits_single (head_lt a), digits_single (last_lt a), digits_cons_two ha, hdigits]
        · intro heq
          exact pair_head_ne ha (List.cons.inj heq).1
    · exact ambiguous_shift ha hhead.1 hhead.2

theorem ambiguous_of_not_settled {as : List UInt8} (h : ¬Settled as) : Ambiguous as := by
  by_cases hleft : NoMergeLeft as
  · have hright : ¬NoMergeRight (as.dropWhile fun a => OneDigit a) := fun hr => h ⟨hleft, hr⟩
    clear h hleft
    induction as with
    | nil => exact absurd List.IsChain.nil hright
    | cons a as ih =>
      by_cases ha : OneDigit a
      · rw [List.dropWhile_cons_of_pos (by simpa using ha)] at hright
        exact ambiguous_cons (ih hright)
      · rw [List.dropWhile_cons_of_neg (by simpa using ha)] at hright
        exact ambiguous_of_mergeRight ha hright
  · exact ambiguous_of_mergeLeft hleft

theorem identifies_iff (as : List UInt8) : Identifies as ↔ Settled as := by
  constructor
  · intro h
    by_contra hns
    exact not_identifies_of_ambiguous (ambiguous_of_not_settled hns) h
  · exact identifies_of_settled

end HexText

end SnippetsC
