import SnippetsC.Framework.HexText
import SnippetsC.Netlink.Printers

namespace SnippetsC.Netlink

/-! Which addresses can be told from the text that the byte loops print. -/

open HexText (digits Settled)

/-- The bytes of an address, each printed with `%x`. -/
def hexText (bs : List UInt8) : String :=
  String.join (bs.map fun b => Conversion.x.text b.toNat)

theorem text_x_byte (b : UInt8) :
    (Conversion.x.text b.toNat).toList = (HexText.byteDigits b).map Nat.digitChar := by
  have hlt := b.toNat_lt
  rw [Conversion.text, String.toList_ofList, Nat.mod_eq_of_lt (by omega), HexText.byteDigits]
  by_cases h : HexText.OneDigit b
  · rw [if_pos h, Nat.toDigits_of_lt_base h]
    rfl
  · rw [if_neg h, Nat.toDigits_of_base_le (by decide) (Nat.not_lt.mp h),
      Nat.toDigits_of_lt_base (by omega)]
    rfl

theorem hexText_toList (bs : List UInt8) : (hexText bs).toList = (digits bs).map Nat.digitChar := by
  induction bs with
  | nil => rfl
  | cons b bs ih =>
    rw [hexText] at ih
    rw [hexText, List.map_cons, String.join_cons, String.toList_append, ih, text_x_byte]
    exact List.map_append.symm

theorem digitChar_inj : ∀ d < 16, ∀ e < 16, Nat.digitChar d = Nat.digitChar e → d = e := by
  decide

theorem map_digitChar_inj {ds es : List Nat} (hd : ∀ d ∈ ds, d < 16) (he : ∀ e ∈ es, e < 16)
    (h : ds.map Nat.digitChar = es.map Nat.digitChar) : ds = es := by
  induction ds generalizing es with
  | nil => exact (List.map_eq_nil_iff.mp h.symm).symm
  | cons d ds ih =>
    cases es with
    | nil => cases h
    | cons e es =>
      obtain ⟨hd0, hds⟩ := List.forall_mem_cons.mp hd
      obtain ⟨he0, hes⟩ := List.forall_mem_cons.mp he
      obtain ⟨hhead, htail⟩ := List.cons.inj h
      rw [digitChar_inj d hd0 e he0 hhead, ih hds hes htail]

/-- The text determines the digits and nothing more. -/
theorem hexText_eq_iff {as bs : List UInt8} : hexText as = hexText bs ↔ digits as = digits bs := by
  rw [← String.toList_inj, hexText_toList, hexText_toList]
  constructor
  · exact map_digitChar_inj (HexText.digits_lt as) (HexText.digits_lt bs)
  · exact congrArg _

section output

variable (m : Mem) (room : Nat)

theorem output_byteLoop (rta p n : Nat) :
    Effect.output m room ((List.range n).flatMap fun i =>
      [.load (rtaLenField rta), .print [.conv .x] [⟨p + i, 1⟩]]) =
        some (hexText (m.bytes p n)) := by
  induction n with
  | zero => rfl
  | succ n ih =>
    rw [List.range_succ, List.flatMap_append, Mem.bytes_succ, hexText, List.map_append,
      String.join_append]
    apply Effect.output_append ih
    simp [m.load_one (p + n)]

theorem output_printAddr (rta : Nat) :
    Effect.output m room (printAddr m rta) =
      some (hexText (rtattrAt m rta).payload ++ "\n") := by
  have hbytes : Effect.output m room (printBytes m rta) =
      some (hexText (rtattrAt m rta).payload ++ "") :=
    Effect.output_append (output_byteLoop m room rta (rtaData rta) (rtaPayload m rta).toNat) rfl
  rw [String.append_empty] at hbytes
  exact Effect.output_append hbytes rfl

end output

/-- Where the byte loop stands. -/
inductive AddrLoop where
  | printAddr
  | ifEvents (verbose : Bool)
  | ifRtas

namespace AddrLoop

def run : AddrLoop → Mem → Nat → List Effect
  | printAddr => Netlink.printAddr
  | ifEvents verbose => IfEvents.parseRta verbose
  | ifRtas => IfRtas.parseRta

/-- The attributes whose payload is printed by the loop. -/
def Takes : AddrLoop → Nat → Prop
  | printAddr, _ => True
  | _, type => type = IFLA_ADDRESS ∨ type = IFLA_BROADCAST

/-- What is printed before the address. -/
def heading (loop : AddrLoop) (len type : Nat) : String :=
  let label := if type = IFLA_ADDRESS then "  hw addr: " else "  bc addr: "
  match loop with
  | printAddr => ""
  | ifEvents true => printf [.lit "routing attribute:\n  len: ", .conv .d, .lit ",\n  type: ",
      .conv .d, .lit ",\n"] [len, type] ++ label
  | ifEvents false => label
  | ifRtas => label

theorem output_linkRta {other : List Effect} {m : Mem} {rta : Nat} (room : Nat)
    (h : rtaType m rta = IFLA_ADDRESS ∨ rtaType m rta = IFLA_BROADCAST) :
    Effect.output m room (linkRta other m rta) =
      some ((if rtaType m rta = IFLA_ADDRESS then "  hw addr: " else "  bc addr: ") ++
        (hexText (rtattrAt m rta).payload ++ "\n")) := by
  have hsay : ∀ text, Effect.output m room [say text] = some text := by
    intro text
    simp [say]
  rcases h with h | h
  · have hcase : linkRta other m rta = [say "  hw addr: "] ++ Netlink.printAddr m rta := by
      simp [linkRta, h, IFLA_ADDRESS, IFLA_UNSPEC]
    rw [hcase, if_pos h]
    exact Effect.output_append (hsay _) (output_printAddr m room rta)
  · have hcase : linkRta other m rta = [say "  bc addr: "] ++ Netlink.printAddr m rta := by
      simp [linkRta, h, IFLA_ADDRESS, IFLA_UNSPEC, IFLA_BROADCAST]
    rw [hcase, if_neg (by rw [h]; decide)]
    exact Effect.output_append (hsay _) (output_printAddr m room rta)

theorem output_run {loop : AddrLoop} {m : Mem} {rta : Nat} (room : Nat)
    (h : loop.Takes (rtaType m rta)) :
    Effect.output m room (loop.run m rta) =
      some (loop.heading (rtaLen m rta) (rtaType m rta) ++
        (hexText (rtattrAt m rta).payload ++ "\n")) := by
  cases loop with
  | printAddr =>
    rw [run, output_printAddr, heading, String.empty_append]
  | ifEvents verbose =>
    cases verbose with
    | false => exact (Effect.output_load m room _ _).trans (output_linkRta room h)
    | true =>
      have hrta : Effect.output m room [IfEvents.rtaText rta] = _ := Effect.output_print m room _ _
      rw [heading, String.append_assoc]
      exact Effect.output_append hrta ((Effect.output_load m room _ _).trans (output_linkRta room h))
  | ifRtas => exact (Effect.output_load m room _ _).trans (output_linkRta room h)

end AddrLoop

theorem rtaType_of_holds {m : Mem} {rta : Nat} {a : Rtattr} (h : m.Holds rta a.data)
    (hfits : 4 + a.payload.length < 65536) : rtaType m rta = a.type.toNat := by
  have hattr := congrArg (fun x => x.type.toNat) (rtattrAt_of_holds h hfits)
  have hlt := m.load16_lt (rta + 2)
  rw [← hattr]
  exact (Nat.mod_eq_of_lt hlt).symm

section address

variable {type : UInt16} {m m' : Mem} {rta rta' : Nat} {as bs : List UInt8}

/-- The output depends on the length and the text of the address. -/
theorem output_of_holds {loop : AddrLoop} (htype : loop.Takes type.toNat)
    (h : m.Holds rta (Rtattr.data ⟨type, as⟩)) (hfits : 4 + as.length < 65536) (room : Nat) :
    Effect.output m room (loop.run m rta) =
      some (loop.heading (4 + as.length) type.toNat ++ (hexText as ++ "\n")) := by
  have hrta := rtaType_of_holds h hfits
  rw [AddrLoop.output_run room (by rw [hrta]; exact htype), hrta, rtaLen_of_holds h hfits,
    rtattrAt_of_holds h hfits]

theorem output_eq_iff {loop : AddrLoop} (htype : loop.Takes type.toNat)
    (h : m.Holds rta (Rtattr.data ⟨type, as⟩)) (h' : m'.Holds rta' (Rtattr.data ⟨type, bs⟩))
    (hlen : bs.length = as.length) (hfits : 4 + as.length < 65536) (room : Nat) :
    Effect.output m' room (loop.run m' rta') = Effect.output m room (loop.run m rta) ↔
      digits bs = digits as := by
  rw [output_of_holds htype h hfits, output_of_holds htype h' (by omega), hlen, Option.some_inj,
    String.append_right_inj, String.append_left_inj, hexText_eq_iff]

/-- An address is told from all others of its length by the printed text exactly if its bytes are
settled. -/
theorem addr_identified_iff (loop : AddrLoop) (htype : loop.Takes type.toNat)
    (h : m.Holds rta (Rtattr.data ⟨type, as⟩)) (hfits : 4 + as.length < 65536) (room : Nat) :
    (∀ (m' : Mem) (rta' : Nat) (bs : List UInt8), m'.Holds rta' (Rtattr.data ⟨type, bs⟩) →
      bs.length = as.length →
      Effect.output m' room (loop.run m' rta') = Effect.output m room (loop.run m rta) →
        bs = as) ↔ Settled as := by
  rw [← HexText.identifies_iff]
  constructor
  · intro hall bs hlen hdigits
    have hbs := Mem.holds_write (fun _ => 0) 0 (Rtattr.data ⟨type, bs⟩)
    exact hall _ 0 bs hbs hlen ((output_eq_iff htype h hbs hlen hfits room).mpr hdigits)
  · intro hid m' rta' bs h' hlen hout
    exact hid bs hlen ((output_eq_iff htype h h' hlen hfits room).mp hout)

end address

/-- Memory that holds one attribute. -/
def attrMem (type : UInt16) (payload : List UInt8) : Mem :=
  Mem.write (fun _ => 0) 0 (Rtattr.data ⟨type, payload⟩)

def virtualMac : List UInt8 := [0x52, 0x54, 0x00, 0x12, 0x34, 0x56]

theorem addr_identified_iff_mac :
    (∀ (m' : Mem) (rta' : Nat) (bs : List UInt8), m'.Holds rta' (Rtattr.data ⟨1, bs⟩) →
      bs.length = virtualMac.length →
      Effect.output m' 0 (AddrLoop.ifRtas.run m' rta') =
        Effect.output (attrMem 1 virtualMac) 0 (AddrLoop.ifRtas.run (attrMem 1 virtualMac) 0) →
        bs = virtualMac) ↔ Settled virtualMac :=
  addr_identified_iff .ifRtas (Or.inl rfl)
    (Mem.holds_write (fun _ => 0) 0 (Rtattr.data ⟨1, virtualMac⟩)) (by decide) 0

/-- What a loop prints for an address. -/
def AddrLoop.printed (loop : AddrLoop) (payload : List UInt8) : Option String :=
  Effect.output (attrMem 1 payload) 0 (loop.run (attrMem 1 payload) 0)

/-- The addresses `01:23` and `12:03` are both printed as `123`. -/
theorem addr_collide : [0x01, 0x23] ≠ ([0x12, 0x03] : List UInt8) ∧
    AddrLoop.printAddr.printed [0x01, 0x23] = AddrLoop.printAddr.printed [0x12, 0x03] ∧
    (AddrLoop.ifEvents false).printed [0x01, 0x23] =
      (AddrLoop.ifEvents false).printed [0x12, 0x03] ∧
    AddrLoop.ifRtas.printed [0x01, 0x23] = AddrLoop.ifRtas.printed [0x12, 0x03] := by
  decide +kernel

end SnippetsC.Netlink
