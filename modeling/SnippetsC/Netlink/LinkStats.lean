import SnippetsC.Framework.Printf

namespace SnippetsC.Netlink

/-! The link counters of `if-stats`. -/

/-- The counters in the order in which `struct rtnl_link_stats` and `struct rtnl_link_stats64` hold
them. -/
inductive LinkCounter where
  | rxPackets | txPackets | rxBytes | txBytes | rxErrors | txErrors | rxDropped | txDropped
  | multicast | collisions | rxLengthErrors | rxOverErrors | rxCrcErrors | rxFrameErrors
  | rxFifoErrors | rxMissedErrors | txAbortedErrors | txCarrierErrors | txFifoErrors
  | txHeartbeatErrors | txWindowErrors | rxCompressed | txCompressed | rxNohandler
  deriving DecidableEq

namespace LinkCounter

/-- The member of the struct at `stats` whose counters are `width` bytes wide. -/
def field (width stats : Nat) (c : LinkCounter) : Extent := ⟨stats + width * c.ctorIdx, width⟩

/-- What a counter is called in the output. -/
def label : LinkCounter → String
  | rxPackets => "rx packets"
  | txPackets => "tx packets"
  | rxBytes => "rx bytes"
  | txBytes => "tx bytes"
  | rxErrors => "rx errors"
  | txErrors => "tx errors"
  | rxDropped => "rx dropped"
  | txDropped => "tx dropped"
  | multicast => "multicast"
  | collisions => "collisions"
  | rxLengthErrors => "rx length errors"
  | rxOverErrors => "rx over errors"
  | rxCrcErrors => "rx crc errors"
  | rxFrameErrors => "rx frame errors"
  | rxFifoErrors => "rx fifo errors"
  | rxMissedErrors => "rx missed errors"
  | txAbortedErrors => "tx aborted errors"
  | txCarrierErrors => "tx carrier errors"
  | txFifoErrors => "tx fifo errors"
  | txHeartbeatErrors => "tx heartbeat errors"
  | txWindowErrors => "tx window errors"
  | rxCompressed => "rx compressed"
  | txCompressed => "tx compressed"
  | rxNohandler => "rx no handler"

def all : List LinkCounter :=
  [rxPackets, txPackets, rxBytes, txBytes, rxErrors, txErrors, rxDropped, txDropped, multicast,
    collisions, rxLengthErrors, rxOverErrors, rxCrcErrors, rxFrameErrors, rxFifoErrors,
    rxMissedErrors, txAbortedErrors, txCarrierErrors, txFifoErrors, txHeartbeatErrors,
    txWindowErrors, rxCompressed, txCompressed, rxNohandler]

theorem mem_all (c : LinkCounter) : c ∈ all := by
  cases c
  all_goals decide

end LinkCounter

open LinkCounter

/-- The lines of a format string that show one counter each. -/
def counterLines (c : Conversion) (labels : List String) : List Piece :=
  labels.flatMap fun label => [.lit ("    " ++ label ++ ": "), .conv c, .lit "\n"]

/-- The format string of `print_stats` behind its heading. -/
def printStatsLines : List Piece :=
  counterLines .d ["rx packets", "tx packets", "rx bytes", "tx bytes", "rx errors", "tx errors",
    "rx dropped", "tx dropped", "multicast", "collisions", "rx length errors", "rx over errors",
    "rx crc errors", "rx frame errors", "rx fifo errors", "rx missed errors", "tx aborted errors",
    "tx carrier errors", "tx fifo errors", "tx heartbeat errors", "tx window errors",
    "rx compressed", "tx compressed", "rx no handler"]

/-- The arguments of `print_stats`. -/
def printStatsArgs : List LinkCounter :=
  [rxPackets, txPackets, rxBytes, txBytes, rxErrors, txErrors, rxDropped, txDropped, multicast,
    collisions, rxLengthErrors, rxOverErrors, rxCrcErrors, rxFrameErrors, rxFifoErrors,
    rxMissedErrors, txAbortedErrors, txCarrierErrors, txFifoErrors, txHeartbeatErrors,
    txWindowErrors, rxCompressed, txCompressed, rxNohandler]

/-- `print_stats` -/
def printStats (stats : Nat) : Effect :=
  .print (.lit "  stats: \n" :: printStatsLines) (printStatsArgs.map (field 4 stats))

/-- The format string of `print_stats64` behind its heading. -/
def printStats64Lines : List Piece :=
  counterLines .llu ["rx packets", "tx packets", "rx bytes", "tx bytes", "rx errors", "tx errors",
    "rx dropped", "tx dropped", "multicast", "collisions", "rx length errors", "rx over errors",
    "rx crc errors", "rx frame errors", "rx fifo errors", "rx missed errors", "tx aborted errors",
    "tx carrier errors", "tx fifo errors", "tx heartbeat errors", "tx window errors",
    "rx compressed", "tx compressed", "rx no handler"]

/-- The arguments of `print_stats64`. -/
def printStats64Args : List LinkCounter :=
  [rxPackets, txPackets, rxBytes, txBytes, rxErrors, txErrors, rxDropped, txDropped, multicast,
    collisions, rxLengthErrors, rxOverErrors, rxCrcErrors, rxFrameErrors, rxFifoErrors,
    rxMissedErrors, txAbortedErrors, txCarrierErrors, txFifoErrors, txHeartbeatErrors,
    txWindowErrors, rxCompressed, txCompressed, rxNohandler]

/-- `print_stats64` -/
def printStats64 (stats : Nat) : Effect :=
  .print (.lit "  stats64: \n" :: printStats64Lines) (printStats64Args.map (field 8 stats))

/-- One line for each counter: its label and its value in decimal. -/
def decimalLines (record : LinkCounter → Nat) : String :=
  String.join (all.map fun c => "    " ++ c.label ++ ": " ++ toString (record c) ++ "\n")

/-- Labels and arguments that follow the same list of counters meet in the right lines. -/
theorem printf_counterLines (conv : Conversion) (cs : List LinkCounter)
    (record : LinkCounter → Nat) :
    printf (counterLines conv (cs.map label)) (cs.map record) =
      String.join (cs.map fun c => "    " ++ c.label ++ ": " ++ conv.text (record c) ++ "\n") := by
  induction cs with
  | nil => rfl
  | cons c cs ih =>
    have hline : printf (counterLines conv ((c :: cs).map label)) ((c :: cs).map record) =
        "    " ++ c.label ++ ": " ++ (conv.text (record c) ++
          ("\n" ++ printf (counterLines conv (cs.map label)) (cs.map record))) := rfl
    rw [hline, ih, List.map_cons, String.join_cons]
    simp only [String.append_assoc]

theorem printStatsLines_eq : printStatsLines = counterLines .d (all.map label) := rfl
theorem printStats64Lines_eq : printStats64Lines = counterLines .llu (all.map label) := rfl

section texts

variable {m : Mem} {stats : Nat} {record : LinkCounter → Nat}

theorem printStats_text (h : ∀ c, m.load (field 4 stats c) = record c) (room : Nat) :
    (printStats stats).text m room = some ("  stats: \n" ++ String.join (all.map fun c =>
      "    " ++ c.label ++ ": " ++ Conversion.d.text (record c) ++ "\n")) := by
  have hargs : (printStatsArgs.map (field 4 stats)).map m.load = all.map record := by
    rw [List.map_map]
    exact List.map_congr_left fun c _ => h c
  rw [printStats, Effect.text, hargs, printf_lit, printStatsLines_eq, printf_counterLines]

/-- `%llu` shows every counter as it is. -/
theorem printStats64_text (h : ∀ c, m.load (field 8 stats c) = record c)
    (hlt : ∀ c, record c < 2 ^ 64) (room : Nat) :
    (printStats64 stats).text m room = some ("  stats64: \n" ++ decimalLines record) := by
  have hargs : (printStats64Args.map (field 8 stats)).map m.load = all.map record := by
    rw [List.map_map]
    exact List.map_congr_left fun c _ => h c
  have hlines : ∀ c, Conversion.llu.text (record c) = toString (record c) :=
    fun c => Conversion.text_llu (hlt c)
  rw [printStats64, Effect.text, hargs, printf_lit, printStats64Lines_eq, printf_counterLines,
    decimalLines]
  simp only [hlines]

end texts

/-- `%d` shows every counter as it is exactly if all of them are below `2 ^ 31`. -/
theorem signed_lines_iff {record : LinkCounter → Nat} (h : ∀ c, record c < 2 ^ 32) :
    String.join (all.map fun c =>
        "    " ++ c.label ++ ": " ++ Conversion.d.text (record c) ++ "\n") = decimalLines record ↔
      ∀ c, record c < 2 ^ 31 := by
  constructor
  · intro heq c
    have hline := lines_injective (fun c => toString_int_newline _)
      (fun c => toString_int_newline (Int.ofNat (record c))) heq c (mem_all c)
    exact (Conversion.text_d_eq_iff (h c)).mp hline
  · intro hlt
    have hlines : ∀ c, Conversion.d.text (record c) = toString (record c) :=
      fun c => Conversion.text_d (hlt c)
    simp only [hlines, decimalLines]

/-- The lines behind both headings are the same, and each shows its counter's value, exactly if no
counter needs the 32nd bit. -/
theorem stats_agree_iff (m : Mem) (stats stats64 : Nat) (record : LinkCounter → UInt32)
    (h : ∀ c, m.load (field 4 stats c) = (record c).toNat)
    (h64 : ∀ c, m.load (field 8 stats64 c) = (record c).toNat) (room : Nat) :
    (∃ lines, (printStats stats).text m room = some ("  stats: \n" ++ lines) ∧
      (printStats64 stats64).text m room = some ("  stats64: \n" ++ lines) ∧
      lines = decimalLines fun c => (record c).toNat) ↔ ∀ c, (record c).toNat < 2 ^ 31 := by
  have hlt : ∀ c, (record c).toNat < 2 ^ 32 := fun c => (record c).toNat_lt
  rw [← signed_lines_iff hlt, printStats_text h,
    printStats64_text h64 (fun c => (hlt c).trans (by decide))]
  constructor
  · intro hlines
    obtain ⟨lines, h32, -, hdec⟩ := hlines
    rw [← hdec]
    exact (String.append_right_inj _).mp (Option.some.inj h32)
  · intro heq
    exact ⟨_, congrArg _ (congrArg _ heq), rfl, rfl⟩

/-- Memory that holds a record with 32-bit counters and behind it the same with 64-bit counters. -/
def bothRecords (record : LinkCounter → UInt32) : Mem :=
  Mem.write (fun _ => 0) 0 ((all.flatMap fun c => leBytes 4 (record c).toNat) ++
    all.flatMap fun c => leBytes 8 (record c).toNat)

def twoGiBReceived : LinkCounter → UInt32
  | rxPackets => 1500000
  | rxBytes => 2147483648
  | _ => 0

theorem bothRecords_twoGiB (c : LinkCounter) :
    (bothRecords twoGiBReceived).load (field 4 0 c) = (twoGiBReceived c).toNat ∧
      (bothRecords twoGiBReceived).load (field 8 96 c) = (twoGiBReceived c).toNat := by
  cases c
  all_goals decide +kernel

theorem stats_agree_iff_twoGiB :
    (∃ lines, (printStats 0).text (bothRecords twoGiBReceived) 0 = some ("  stats: \n" ++ lines) ∧
      (printStats64 96).text (bothRecords twoGiBReceived) 0 = some ("  stats64: \n" ++ lines) ∧
      lines = decimalLines fun c => (twoGiBReceived c).toNat) ↔
        ∀ c, (twoGiBReceived c).toNat < 2 ^ 31 :=
  stats_agree_iff (bothRecords twoGiBReceived) 0 96 twoGiBReceived
    (fun c => (bothRecords_twoGiB c).1) (fun c => (bothRecords_twoGiB c).2) 0

/-- With 2 GiB received the 32-bit printer shows a negative number. -/
theorem stats_disagree :
    ¬∃ lines, (printStats 0).text (bothRecords twoGiBReceived) 0 = some ("  stats: \n" ++ lines) ∧
      (printStats64 96).text (bothRecords twoGiBReceived) 0 =
        some ("  stats64: \n" ++ lines) := by
  intro h
  obtain ⟨lines, h32, h64⟩ := h
  have hlt : ∀ c, (twoGiBReceived c).toNat < 2 ^ 32 := fun c => (twoGiBReceived c).toNat_lt
  rw [printStats_text fun c => (bothRecords_twoGiB c).1] at h32
  rw [printStats64_text (fun c => (bothRecords_twoGiB c).2)
    fun c => (hlt c).trans (by decide)] at h64
  have hsigned := (String.append_right_inj _).mp (Option.some.inj h32)
  have hexact := (String.append_right_inj _).mp (Option.some.inj h64)
  rw [← hexact] at hsigned
  exact absurd ((signed_lines_iff hlt).mp hsigned rxBytes) (by decide)

end SnippetsC.Netlink
