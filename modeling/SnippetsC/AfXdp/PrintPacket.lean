import SnippetsC.Framework.HexDump

namespace SnippetsC.AfXdp

/-! The text that `print_packet` writes. -/

/-- The loop of `print_packet`. -/
def packetText (m : Mem) (packet : Nat) (length : Int32) : List Char :=
  (List.range length.toInt.toNat).flatMap fun i => HexDump.text (m (packet + i)).toNat

/-- `print_packet` -/
def printPacket (m : Mem) (packet : Nat) (length : Int32) : String :=
  "packet: " ++ String.ofList (packetText m packet length) ++ "\n"

theorem packetText_eq (m : Mem) (packet : Nat) (length : Int32) :
    packetText m packet length = HexDump.dump (m.bytes packet length.toInt.toNat) := by
  rw [packetText]
  induction length.toInt.toNat with
  | zero => rfl
  | succ n ih =>
    rw [List.range_succ, List.flatMap_append, ih, Mem.bytes_succ, HexDump.dump, HexDump.dump,
      List.flatMap_append, List.flatMap_singleton, List.flatMap_singleton]

/-- The text has two digits for each byte and reads back as the packet; packets that print alike
are alike. -/
theorem printPacket_lossless (m : Mem) (packet : Nat) (length : Int32) :
    (∃ body, printPacket m packet length = "packet: " ++ String.ofList body ++ "\n" ∧
      body.length = 2 * length.toInt.toNat ∧
      HexDump.read body = some (m.bytes packet length.toInt.toNat)) ∧
    ∀ (m' : Mem) (packet' : Nat) (length' : Int32),
      printPacket m packet length = printPacket m' packet' length' →
        m.bytes packet length.toInt.toNat = m'.bytes packet' length'.toInt.toNat := by
  constructor
  · refine ⟨_, rfl, ?_, ?_⟩
    · rw [packetText_eq, HexDump.dump_length, Mem.bytes_length]
    · rw [packetText_eq, HexDump.read_dump]
  · intro m' packet' length' h
    rw [printPacket, printPacket, String.append_left_inj, String.append_right_inj,
      String.ofList_inj, packetText_eq, packetText_eq] at h
    exact HexDump.dump_injective h

end SnippetsC.AfXdp
