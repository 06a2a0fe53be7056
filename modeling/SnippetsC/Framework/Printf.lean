import SnippetsC.Framework.Memory
import Mathlib.Data.Int.DivMod

namespace SnippetsC

/-! Formatted output: a format string as its pieces and the arguments they take, in order. -/

/-- The conversions of a format string, without flags and field widths. -/
inductive Conversion where
  | d | u | llu | x
  deriving DecidableEq

/-- How a conversion shows an unsigned argument; `%d` takes its 32 bits for a signed number. -/
def Conversion.text : Conversion → Nat → String
  | .d, v => toString ((v : Int).bmod (2 ^ 32))
  | .u, v => toString (v % 2 ^ 32)
  | .llu, v => toString (v % 2 ^ 64)
  | .x, v => String.ofList (Nat.toDigits 16 (v % 2 ^ 32))

inductive Piece where
  | lit (text : String)
  | conv (c : Conversion)
  deriving DecidableEq

/-- What `printf` writes. -/
def printf : List Piece → List Nat → String
  | [], _ => ""
  | .lit text :: fmt, args => text ++ printf fmt args
  | .conv c :: fmt, arg :: args => c.text arg ++ printf fmt args
  | .conv _ :: _, [] => ""

@[simp] theorem printf_nil (args : List Nat) : printf [] args = "" := rfl

@[simp] theorem printf_lit (text : String) (fmt : List Piece) (args : List Nat) :
    printf (.lit text :: fmt) args = text ++ printf fmt args := rfl

@[simp] theorem printf_conv (c : Conversion) (fmt : List Piece) (arg : Nat) (args : List Nat) :
    printf (.conv c :: fmt) (arg :: args) = c.text arg ++ printf fmt args := rfl

/-- A number below `2 ^ 31` is shown as it is. -/
theorem Conversion.text_d {v : Nat} (h : v < 2 ^ 31) : Conversion.d.text v = toString v := by
  have hb : (v : Int).bmod (2 ^ 32) = v := Int.bmod_eq_of_le (by omega) (by omega)
  rw [Conversion.text, hb]
  rfl

theorem Conversion.text_u {v : Nat} (h : v < 2 ^ 32) : Conversion.u.text v = toString v := by
  rw [Conversion.text, Nat.mod_eq_of_lt h]

theorem Conversion.text_llu {v : Nat} (h : v < 2 ^ 64) : Conversion.llu.text v = toString v := by
  rw [Conversion.text, Nat.mod_eq_of_lt h]

theorem isDigit_of_mem_toString {v : Nat} {c : Char} (h : c ∈ (toString v).toList) : c.isDigit := by
  rw [Nat.toString_eq_repr, Nat.toList_repr] at h
  exact Nat.isDigit_of_mem_toDigits (by decide) (by decide) h

/-- A negative number is shown with a sign. -/
theorem toString_negSucc_toList (n : Nat) :
    (toString (Int.negSucc n)).toList = '-' :: (toString (n + 1)).toList := by
  change ("-" ++ Nat.repr (n + 1)).toList = _
  rw [String.toList_append, Nat.toString_eq_repr]
  rfl

theorem toString_int_newline (i : Int) : '\n' ∉ (toString i).toList := by
  intro h
  cases i with
  | ofNat n => exact absurd (isDigit_of_mem_toString (v := n) h) (by decide)
  | negSucc n =>
    rw [toString_negSucc_toList] at h
    rcases List.mem_cons.mp h with h | h
    · exact absurd h (by decide)
    · exact absurd (isDigit_of_mem_toString h) (by decide)

/-- From `2 ^ 31` on, `%d` shows a negative number. -/
theorem Conversion.text_d_eq_iff {v : Nat} (h : v < 2 ^ 32) :
    Conversion.d.text v = toString v ↔ v < 2 ^ 31 := by
  constructor
  · intro heq
    by_contra hge
    have hneg : (v : Int).bmod (2 ^ 32) = Int.negSucc (2 ^ 32 - 1 - v) := by
      rw [Int.bmod_def]
      split_ifs
      · omega
      · omega
    rw [Conversion.text, hneg] at heq
    have hsign : '-' ∈ (toString v).toList := by
      rw [← heq, toString_negSucc_toList]
      exact List.mem_cons_self
    exact absurd (isDigit_of_mem_toString hsign) (by decide)
  · exact Conversion.text_d

/-- Two texts that end at the first separator are read off a list that starts with them. -/
theorem append_separator_inj {α : Type*} {c : α} {as bs xs ys : List α} (ha : c ∉ as) (hb : c ∉ bs)
    (h : as ++ c :: xs = bs ++ c :: ys) : as = bs ∧ xs = ys := by
  induction as generalizing bs with
  | nil =>
    cases bs with
    | nil => exact ⟨rfl, (List.cons.inj h).2⟩
    | cons b bs => exact absurd (List.mem_cons.mpr (Or.inl (List.cons.inj h).1)) hb
  | cons a as ih =>
    cases bs with
    | nil => exact absurd (List.mem_cons.mpr (Or.inl (List.cons.inj h).1.symm)) ha
    | cons b bs =>
      obtain ⟨rfl, htail⟩ := List.cons.inj h
      obtain ⟨rfl, hrest⟩ := ih (fun hc => ha (List.mem_cons_of_mem _ hc))
        (fun hc => hb (List.mem_cons_of_mem _ hc)) htail
      exact ⟨rfl, hrest⟩

/-- Lines that begin alike are equal only if what follows is equal in each of them. -/
theorem lines_injective {α : Type*} {before f g : α → String} (hf : ∀ a, '\n' ∉ (f a).toList)
    (hg : ∀ a, '\n' ∉ (g a).toList) {as : List α}
    (h : String.join (as.map fun a => before a ++ f a ++ "\n") =
      String.join (as.map fun a => before a ++ g a ++ "\n")) : ∀ a ∈ as, f a = g a := by
  induction as with
  | nil => exact List.forall_mem_nil _
  | cons a as ih =>
    have hlist := congrArg String.toList h
    simp only [List.map_cons, String.join_cons, String.toList_append, List.append_assoc,
      List.append_cancel_left_eq] at hlist
    obtain ⟨hline, hrest⟩ := append_separator_inj (hf a) (hg a) hlist
    rw [List.forall_mem_cons]
    exact ⟨String.toList_inj.mp hline, ih (String.toList_inj.mp hrest)⟩

namespace Mem

/-- The bytes from `p` up to the first zero byte, if there is one among the next `room` bytes. -/
def cstring (m : Mem) (p : Nat) : Nat → Option (List UInt8)
  | 0 => none
  | room + 1 => if m p = 0 then some [] else (cstring m (p + 1) room).map (m p :: ·)

/-- A reader of the string at `p` gets to address `i`. -/
def StringReads (m : Mem) (p i : Nat) : Prop := p ≤ i ∧ ∀ j, p ≤ j → j < i → m j ≠ 0

theorem cstring_congr {m m' : Mem} {p : Nat} (h : ∀ i, m.StringReads p i → m i = m' i)
    (room : Nat) : m.cstring p room = m'.cstring p room := by
  induction room generalizing p with
  | zero => rfl
  | succ room ih =>
    have hp : m p = m' p := h p ⟨le_refl p, fun j hj hlt => absurd hlt (Nat.not_lt.mpr hj)⟩
    rw [cstring, cstring, ← hp]
    by_cases hz : m p = 0
    · rw [if_pos hz, if_pos hz]
    · rw [if_neg hz, if_neg hz, ih]
      intro i hi
      refine h i ⟨Nat.le_of_succ_le hi.1, ?_⟩
      intro j hj hlt
      by_cases hjp : j = p
      · rw [hjp]
        exact hz
      · exact hi.2 j (by omega) hlt

/-- A string that lies in memory with its end is read up to that end. -/
theorem cstring_of_holds {m : Mem} {p : Nat} {bs : List UInt8} (h : m.Holds p bs) (hz : 0 ∈ bs)
    {room : Nat} (hr : bs.length ≤ room) : m.cstring p room = some (bs.takeWhile (· ≠ 0)) := by
  induction bs generalizing p room with
  | nil => cases hz
  | cons b bs ih =>
    obtain ⟨hb, hbs⟩ := List.cons.inj h
    cases room with
    | zero => simp at hr
    | succ room =>
      rw [cstring, hb]
      by_cases hzero : b = 0
      · simp [hzero]
      · have hmem : 0 ∈ bs := by
          rcases List.mem_cons.mp hz with hb0 | hmem
          · exact absurd hb0.symm hzero
          · exact hmem
        rw [if_neg hzero, ih hbs hmem (Nat.le_of_succ_le_succ hr),
          List.takeWhile_cons_of_pos (by simpa using hzero)]
        rfl

end Mem

/-- What a printing function does, in order: it loads a value to decide something, it prints values
from memory, or it prints a string from memory between two literal texts. -/
inductive Effect where
  | load (e : Extent)
  | print (fmt : List Piece) (args : List Extent)
  | printString (before : String) (str : Nat) (after : String)

namespace Effect

/-- The effect reads the byte at address `i`. -/
def Reads (m : Mem) (i : Nat) : Effect → Prop
  | load e => e.start ≤ i ∧ i < e.start + e.size
  | print _ args => ∃ e ∈ args, e.start ≤ i ∧ i < e.start + e.size
  | printString _ str _ => m.StringReads str i

/-- What appears on the output; `room` is how far memory goes on behind the start of a string. -/
def text (m : Mem) (room : Nat) : Effect → Option String
  | load _ => some ""
  | print fmt args => some (printf fmt (args.map m.load))
  | printString before str after => (m.cstring str room).map fun bytes =>
      before ++ String.ofList (bytes.map fun b => Char.ofNat b.toNat) ++ after

/-- What is printed depends on the bytes that are read and on nothing else. -/
theorem text_congr {m m' : Mem} {effect : Effect} (h : ∀ i, effect.Reads m i → m i = m' i)
    (room : Nat) : effect.text m room = effect.text m' room := by
  cases effect with
  | load e => rfl
  | print fmt args =>
    have hargs : args.map m.load = args.map m'.load := by
      apply List.map_congr_left
      intro e he
      exact Mem.load_congr fun i hi hlt => h i ⟨e, he, hi, hlt⟩
    rw [text, text, hargs]
  | printString before str after => rw [text, text, Mem.cstring_congr h]

/-- The literal text that is printed in front of any value. -/
def label : Effect → Option String
  | load _ => none
  | print (.lit text :: _) _ => some text
  | print _ _ => none
  | printString before _ _ => some before

theorem text_label {m : Mem} {room : Nat} {effect : Effect} {out l : String}
    (hout : effect.text m room = some out) (hl : effect.label = some l) :
    ∃ rest, out = l ++ rest := by
  cases effect with
  | load e => cases hl
  | print fmt args =>
    cases fmt with
    | nil => cases hl
    | cons piece fmt =>
      cases piece with
      | lit text =>
        cases hl
        cases hout
        exact ⟨_, printf_lit _ _ _⟩
      | conv c => cases hl
  | printString before str after =>
    cases hl
    obtain ⟨bytes, -, rfl⟩ := Option.map_eq_some_iff.mp hout
    exact ⟨_, String.append_assoc ..⟩

/-- The output of several effects. -/
def output (m : Mem) (room : Nat) : List Effect → Option String
  | [] => some ""
  | effect :: effects => (effect.text m room).bind fun text =>
      (output m room effects).map (text ++ ·)

@[simp] theorem output_load (m : Mem) (room : Nat) (e : Extent) (effects : List Effect) :
    output m room (.load e :: effects) = output m room effects := by
  simp [output, text]

@[simp] theorem output_print (m : Mem) (room : Nat) (fmt : List Piece) (args : List Extent) :
    output m room [.print fmt args] = some (printf fmt (args.map m.load)) := by
  simp [output, text]

theorem output_bind (m : Mem) (room : Nat) (es fs : List Effect) :
    output m room (es ++ fs) =
      (output m room es).bind fun s => (output m room fs).map (s ++ ·) := by
  induction es with
  | nil => cases h : output m room fs <;> simp [output, h]
  | cons e es ih =>
    rw [List.cons_append, output, output, ih]
    cases e.text m room with
    | none => rfl
    | some first =>
      cases output m room es with
      | none => rfl
      | some rest => cases output m room fs <;> simp [String.append_assoc]

theorem output_append {m : Mem} {room : Nat} {es fs : List Effect} {s t : String}
    (hs : output m room es = some s) (ht : output m room fs = some t) :
    output m room (es ++ fs) = some (s ++ t) := by
  induction es generalizing s with
  | nil =>
    cases hs
    rw [List.nil_append, ht, String.empty_append]
  | cons e es ih =>
    obtain ⟨first, hfirst, hrest⟩ := Option.bind_eq_some_iff.mp hs
    obtain ⟨rest, hout, rfl⟩ := Option.map_eq_some_iff.mp hrest
    rw [List.cons_append, output, hfirst, ih hout, String.append_assoc]
    rfl

theorem output_ite {m : Mem} {room : Nat} {c : Prop} [Decidable c] {es fs : List Effect}
    {s t : String} (hs : c → output m room es = some s) (ht : ¬c → output m room fs = some t) :
    output m room (if c then es else fs) = some (if c then s else t) := by
  by_cases h : c
  · rw [if_pos h, if_pos h, hs h]
  · rw [if_neg h, if_neg h, ht h]

/-- No effect reads a byte outside `P`. -/
def Stays (m : Mem) (P : Nat → Prop) (effects : List Effect) : Prop :=
  ∀ effect ∈ effects, ∀ i, effect.Reads m i → P i

section Stays

variable {m : Mem} {P : Nat → Prop}

@[simp] theorem stays_nil : Stays m P [] := List.forall_mem_nil _

@[simp] theorem stays_cons {effect : Effect} {effects : List Effect} :
    Stays m P (effect :: effects) ↔
      (∀ i, effect.Reads m i → P i) ∧ Stays m P effects := List.forall_mem_cons

@[simp] theorem stays_append {es fs : List Effect} :
    Stays m P (es ++ fs) ↔ Stays m P es ∧ Stays m P fs := List.forall_mem_append

theorem Stays.mono {Q : Nat → Prop} {effects : List Effect} (h : Stays m P effects)
    (hPQ : ∀ i, P i → Q i) : Stays m Q effects :=
  fun effect he i hi => hPQ i (h effect he i hi)

theorem stays_flatMap {α : Type*} {f : α → List Effect} {as : List α} :
    Stays m P (as.flatMap f) ↔ ∀ a ∈ as, Stays m P (f a) := by
  induction as with
  | nil => simp
  | cons a as ih => rw [List.flatMap_cons, stays_append, ih, List.forall_mem_cons]

end Stays

theorem output_congr {m m' : Mem} {effects : List Effect}
    (h : Stays m (fun i => m i = m' i) effects) (room : Nat) :
    output m room effects = output m' room effects := by
  induction effects with
  | nil => rfl
  | cons effect effects ih =>
    obtain ⟨hhead, htail⟩ := stays_cons.mp h
    rw [output, output, text_congr hhead, ih htail]

end Effect

/-- An output that is `text` if `clean` holds; otherwise it is longer, if it comes to an end. -/
structure Prints (out : Option String) (text : String) (clean : Prop) : Prop where
  of_clean : clean → out = some text
  of_not : ¬clean → ∀ s, out = some s → text.length < s.length

namespace Prints

variable {out out' : Option String} {text text' : String} {clean clean' : Prop}

theorem iff (h : Prints out text clean) : out = some text ↔ clean := by
  constructor
  · intro hout
    by_contra hnot
    exact absurd (h.of_not hnot text hout) (Nat.lt_irrefl _)
  · exact h.of_clean

theorem le (h : Prints out text clean) {s : String} (hs : out = some s) :
    text.length ≤ s.length := by
  by_cases hc : clean
  · rw [h.of_clean hc] at hs
    exact le_of_eq (congrArg String.length (Option.some.inj hs))
  · exact Nat.le_of_lt (h.of_not hc s hs)

theorem congr (h : Prints out text clean) (hiff : clean ↔ clean') : Prints out text clean' :=
  ⟨fun hc => h.of_clean (hiff.mpr hc), fun hc => h.of_not (mt hiff.mp hc)⟩

/-- One output behind another. -/
theorem append (h : Prints out text clean) (h' : Prints out' text' clean') :
    Prints (out.bind fun s => out'.map (s ++ ·)) (text ++ text') (clean ∧ clean') := by
  constructor
  · intro hc
    rw [h.of_clean hc.1, h'.of_clean hc.2]
    rfl
  · intro hc s hs
    obtain ⟨t, ht, hs⟩ := Option.bind_eq_some_iff.mp hs
    obtain ⟨t', ht', rfl⟩ := Option.map_eq_some_iff.mp hs
    have hle := h.le ht
    have hle' := h'.le ht'
    rw [String.length_append, String.length_append]
    by_cases hfirst : clean
    · have hlt := h'.of_not (fun hsecond => hc ⟨hfirst, hsecond⟩) t' ht'
      omega
    · have hlt := h.of_not hfirst t ht
      omega

/-- A text in front of an output. -/
theorem after (h : Prints out text clean) (s : String) :
    Prints (out.map (s ++ ·)) (s ++ text) clean := by
  constructor
  · intro hc
    rw [h.of_clean hc]
    rfl
  · intro hc t ht
    obtain ⟨u, hu, rfl⟩ := Option.map_eq_some_iff.mp ht
    have hlt := h.of_not hc u hu
    rw [String.length_append, String.length_append]
    omega

theorem empty (h : clean) : Prints (some "") "" clean :=
  ⟨fun _ => rfl, fun hn => absurd h hn⟩

/-- Whatever begins with a label prints something. -/
theorem labelled {m : Mem} {room : Nat} {e : Effect} {es : List Effect} {l : String}
    (hl : e.label = some l) (hpos : 0 < l.length) (hn : ¬clean) :
    Prints (Effect.output m room (e :: es)) "" clean := by
  refine ⟨fun hc => absurd hc hn, ?_⟩
  intro _ s hs
  obtain ⟨first, hfirst, hrest⟩ := Option.bind_eq_some_iff.mp hs
  obtain ⟨rest, -, rfl⟩ := Option.map_eq_some_iff.mp hrest
  obtain ⟨more, rfl⟩ := Effect.text_label hfirst hl
  have hzero : "".length = 0 := rfl
  rw [String.length_append, String.length_append]
  omega

/-- One case of a function that prints a label and more, or something else. -/
theorem ite {m : Mem} {room : Nat} {c : Prop} [Decidable c] {e : Effect} {es fs : List Effect}
    {l : String} (hl : e.label = some l) (hpos : 0 < l.length) (hn : c → ¬clean)
    (hrest : ¬c → Prints (Effect.output m room fs) "" clean) :
    Prints (Effect.output m room (if c then e :: es else fs)) "" clean := by
  by_cases h : c
  · rw [if_pos h]
    exact labelled hl hpos (hn h)
  · rw [if_neg h]
    exact hrest h

end Prints

end SnippetsC
