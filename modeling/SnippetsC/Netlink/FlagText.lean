import SnippetsC.Framework.Lines
import SnippetsC.Netlink.Listeners

namespace SnippetsC.Netlink

/-! What `if-flags` prints, and which flag words it tells apart. -/

/-- What an event prints. -/
def Event.text : Event → String
  | .print text => text
  | _ => ""

namespace IfFlags

/-- Everything `parse_link_message` prints, with the guarded block compiled in. -/
def linkText (m : Mem) (nh : Nat) : String :=
  String.join ((parseLinkMessage true m nh).map Event.text)

/-- The nineteen flags with what each prints. -/
def allTexts : List (Nat × String) := flagTexts ++ lowerUpTexts

def handledFlags : List Nat := allTexts.map Prod.fst

/-- The flags of a word that are handled, in their order. -/
def setFlags (flags : Nat) : List Nat := handledFlags.filter fun f => flags &&& f ≠ 0

/-- All but the first and the last. -/
def innerTexts : List (Nat × String) := flagTexts.tail ++ lowerUpTexts.dropLast

theorem allTexts_eq : allTexts = (IFF_UP, "  up\n") :: (innerTexts ++ [(IFF_ECHO, "  up\n")]) := rfl

theorem innerTexts_nodup : (innerTexts.map Prod.snd).Nodup := by decide +kernel

theorem innerTexts_up : "  up\n" ∉ innerTexts.map Prod.snd := by decide +kernel

theorem allTexts_lines : ∀ x ∈ allTexts, IsLine x.2 := by
  have hall : ∀ x ∈ allTexts, '\n' ∉ x.2.toList.dropLast ∧
      x.2.toList = x.2.toList.dropLast ++ ['\n'] := by decide +kernel
  intro x hx
  exact ⟨_, hall x hx⟩

/-- The entries of a table whose flag is set. -/
def kept (flags : Nat) (texts : List (Nat × String)) : List (Nat × String) :=
  texts.filter fun x => flags &&& x.1 ≠ 0

theorem flagLines_text (flags : Nat) (texts : List (Nat × String)) :
    (flagLines flags texts).map Event.text = (kept flags texts).map Prod.snd := by
  rw [flagLines, List.map_map]
  rfl

theorem setFlags_eq (flags : Nat) : setFlags flags = (kept flags allTexts).map Prod.fst :=
  List.filter_map

theorem kept_append (flags : Nat) (texts texts' : List (Nat × String)) :
    kept flags (texts ++ texts') = kept flags texts ++ kept flags texts' := List.filter_append ..

theorem kept_cons (flags : Nat) (x : Nat × String) (texts : List (Nat × String)) :
    kept flags (x :: texts) =
      (if decide (flags &&& x.1 ≠ 0) then [x] else []) ++ kept flags texts := by
  rw [kept, List.filter_cons]
  split_ifs
  · rfl
  · rfl

/-- Everything printed for a word: the line with the index, and one line for each flag. -/
theorem linkText_eq (m : Mem) (nh : Nat) : linkText m nh =
    printf [.lit "interface ", .conv .d, .lit " flags:\n"]
        [m.load (ifiIndex (nh + sizeofNlmsghdr))] ++
      String.join ((kept (m.load (ifiFlags (nh + sizeofNlmsghdr))) allTexts).map Prod.snd) := by
  rw [linkText, parseLinkMessage, if_pos rfl, List.map_cons, List.map_append, flagLines_text,
    flagLines_text, String.join_cons, ← List.map_append, ← kept_append]
  rfl

/-- `  up` stands in front for `IFF_UP` and behind for `IFF_ECHO`. -/
theorem kept_ends {β : Type} (g : Nat × String → β) (flags : Nat) : (kept flags allTexts).map g =
    (if decide (flags &&& IFF_UP ≠ 0) then [g (IFF_UP, "  up\n")] else []) ++
      ((kept flags innerTexts).map g ++
        if decide (flags &&& IFF_ECHO ≠ 0) then [g (IFF_ECHO, "  up\n")] else []) := by
  have hecho : kept flags [(IFF_ECHO, "  up\n")] =
      if decide (flags &&& IFF_ECHO ≠ 0) then [(IFF_ECHO, "  up\n")] else [] :=
    (kept_cons flags _ []).trans (List.append_nil _)
  rw [allTexts_eq, kept_cons, kept_append, hecho, List.map_append, List.map_append]
  congr 2
  · split_ifs
    · rfl
    · rfl
  · split_ifs
    · rfl
    · rfl

theorem kept_lines (flags : Nat) : ∀ l ∈ (kept flags allTexts).map Prod.snd, IsLine l := by
  rw [List.forall_mem_map]
  intro x hx
  exact allTexts_lines x (List.mem_of_mem_filter hx)

theorem kept_up (flags : Nat) : "  up\n" ∉ (kept flags innerTexts).map Prod.snd := by
  intro h
  exact innerTexts_up ((List.filter_sublist.map Prod.snd).subset h)

/-- The two words agree on every flag that is handled. -/
def Agree (flags flags' : Nat) : Prop :=
  ∀ f ∈ handledFlags, (flags &&& f ≠ 0 ↔ flags' &&& f ≠ 0)

/-- Of the handled flags one word has only `IFF_UP`, the other only `IFF_ECHO`. -/
def Confused (flags flags' : Nat) : Prop :=
  (setFlags flags = [IFF_UP] ∧ setFlags flags' = [IFF_ECHO]) ∨
    (setFlags flags = [IFF_ECHO] ∧ setFlags flags' = [IFF_UP])

theorem mem_setFlags {flags f : Nat} (hf : f ∈ handledFlags) :
    f ∈ setFlags flags ↔ flags &&& f ≠ 0 := by
  rw [setFlags, List.mem_filter, and_iff_right hf, decide_eq_true_iff]

theorem agree_iff_kept {flags flags' : Nat} :
    Agree flags flags' ↔ kept flags allTexts = kept flags' allTexts := by
  constructor
  · intro h
    apply List.filter_congr
    intro x hx
    exact decide_eq_decide.mpr (h x.1 (List.mem_map_of_mem hx))
  · intro h f hf
    rw [← mem_setFlags hf, ← mem_setFlags hf, setFlags_eq, setFlags_eq, h]

/-- The entries kept for a word are those of its handled flags. -/
theorem kept_of_setFlags {flags : Nat} {set : List Nat} (h : setFlags flags = set) :
    kept flags allTexts = allTexts.filter fun x => x.1 ∈ set := by
  apply List.filter_congr
  intro x hx
  have hf : x.1 ∈ handledFlags := List.mem_map_of_mem hx
  rw [decide_eq_decide, ← h, mem_setFlags hf]

theorem not_agree_of_confused {flags flags' : Nat} (h : Confused flags flags') :
    (kept flags allTexts).map Prod.snd = (kept flags' allTexts).map Prod.snd ∧
      ¬Agree flags flags' := by
  have hup : (allTexts.filter fun x => x.1 ∈ [IFF_UP]) = [(IFF_UP, "  up\n")] := by decide +kernel
  have hecho : (allTexts.filter fun x => x.1 ∈ [IFF_ECHO]) = [(IFF_ECHO, "  up\n")] := by
    decide +kernel
  rw [agree_iff_kept]
  rcases h with ⟨h, h'⟩ | ⟨h, h'⟩
  · rw [kept_of_setFlags h, kept_of_setFlags h', hup, hecho]
    exact ⟨rfl, by decide⟩
  · rw [kept_of_setFlags h, kept_of_setFlags h', hup, hecho]
    exact ⟨rfl, by decide⟩

theorem agree_or_confused {flags flags' : Nat}
    (h : (kept flags allTexts).map Prod.snd = (kept flags' allTexts).map Prod.snd) :
    Agree flags flags' ∨ Confused flags flags' := by
  rw [kept_ends, kept_ends] at h
  rcases ends_injective (kept_up flags) (kept_up flags') h with hsame | hends
  · obtain ⟨hup, hecho, hinner⟩ := hsame
    left
    rw [decide_eq_decide] at hup hecho
    have hmid := filter_labels_injective innerTexts_nodup hinner
    intro f hf
    rw [handledFlags, allTexts_eq, List.map_cons, List.map_append, List.mem_cons,
      List.mem_append] at hf
    rcases hf with rfl | hf | hf
    · exact hup
    · obtain ⟨x, hx, rfl⟩ := List.mem_map.mp hf
      exact decide_eq_decide.mp (hmid x hx)
    · rw [List.mem_singleton.mp hf]
      exact hecho
  · obtain ⟨hue, heu, hne, hnil, hnil'⟩ := hends
    right
    rw [List.map_eq_nil_iff] at hnil hnil'
    unfold Confused
    rw [setFlags_eq, setFlags_eq, kept_ends, kept_ends, hnil, hnil', hue, heu]
    rw [hue, heu] at hne
    rw [Bool.eq_not.mpr (Ne.symm hne)]
    cases decide (flags' &&& IFF_ECHO ≠ 0) with
    | true => exact .inl ⟨rfl, rfl⟩
    | false => exact .inr ⟨rfl, rfl⟩

end IfFlags

open IfFlags

/-- For one interface, two flag words that print the same text agree on the nineteen flags exactly
unless one of them has only `IFF_UP` and the other only `IFF_ECHO`. -/
theorem flagText_identifies_iff (m m' : Mem) (nh nh' : Nat)
    (h : m.load (ifiIndex (nh + sizeofNlmsghdr)) = m'.load (ifiIndex (nh' + sizeofNlmsghdr))) :
    (linkText m nh = linkText m' nh' →
        Agree (m.load (ifiFlags (nh + sizeofNlmsghdr)))
          (m'.load (ifiFlags (nh' + sizeofNlmsghdr)))) ↔
      ¬Confused (m.load (ifiFlags (nh + sizeofNlmsghdr)))
        (m'.load (ifiFlags (nh' + sizeofNlmsghdr))) := by
  rw [linkText_eq, linkText_eq, h, String.append_right_inj]
  constructor
  · intro himp hconf
    obtain ⟨hlabels, hnot⟩ := not_agree_of_confused hconf
    exact hnot (himp (congrArg String.join hlabels))
  · intro hnot htext
    have hlabels := join_lines_injective (kept_lines _) (kept_lines _) htext
    exact (agree_or_confused hlabels).resolve_right hnot

/-- A link message with interface index 2 and the flag word `flags`. -/
def flagsMessage (flags : Nat) : Mem :=
  Mem.write (fun _ => 0) 0 (leBytes 4 32 ++ leBytes 2 RTM_NEWLINK ++ List.replicate 14 0 ++
    leBytes 4 2 ++ leBytes 4 flags ++ leBytes 4 0)

theorem flagText_identifies_iff_running :
    let m := flagsMessage (IFF_UP ||| IFF_RUNNING)
    let m' := flagsMessage (IFF_UP ||| IFF_RUNNING ||| 0x80000)
    linkText m 0 = linkText m' 0 ∧ Agree (m.load (ifiFlags 16)) (m'.load (ifiFlags 16)) := by
  intro m m'
  have htext : linkText m 0 = linkText m' 0 := by decide +kernel
  refine ⟨htext, (flagText_identifies_iff m m' 0 0 (by decide +kernel)).mpr ?_ htext⟩
  unfold Confused
  decide +kernel

/-- An interface that is up prints what one that echoes prints. -/
theorem flagText_confuses :
    linkText (flagsMessage IFF_UP) 0 = linkText (flagsMessage IFF_ECHO) 0 ∧
      ¬((flagsMessage IFF_UP).load (ifiFlags 16) &&& IFF_UP ≠ 0 ↔
        (flagsMessage IFF_ECHO).load (ifiFlags 16) &&& IFF_UP ≠ 0) := by
  decide +kernel

end SnippetsC.Netlink
