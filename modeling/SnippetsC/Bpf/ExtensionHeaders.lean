import SnippetsC.Bpf.Counters
import SnippetsC.Framework.Loop

namespace SnippetsC.Bpf

/-! TCP over IPv6, with the extension headers that `xdp-tcp6count` does not look behind. -/

def IPPROTO_HOPOPTS : Nat := 0
def IPPROTO_ROUTING : Nat := 43
def IPPROTO_DSTOPTS : Nat := 60

def IsExtension (proto : Nat) : Prop :=
  proto = IPPROTO_HOPOPTS ∨ proto = IPPROTO_ROUTING ∨ proto = IPPROTO_DSTOPTS

instance (proto : Nat) : Decidable (IsExtension proto) := inferInstanceAs (Decidable (_ ∨ _))

namespace XdpMd

variable (ctx : XdpMd)

/-- The protocol byte of the header at `pos`, which names the header behind it. -/
def nexthdr (pos : Nat) : Nat := (ctx.mem pos).toNat

/-- The size of the extension header at `pos`; its second byte counts units of eight bytes less
the first one. -/
def extensionSize (pos : Nat) : Nat := 8 * ((ctx.mem (pos + 1)).toNat + 1)

/-- A header of protocol `proto` at `pos` leads to the upper-layer protocol `upper`. -/
inductive Leads : Nat → Nat → Nat → Prop where
  | here {proto pos : Nat} (h : ¬IsExtension proto) : Leads proto pos proto
  | behind {proto pos upper : Nat} (h : IsExtension proto)
      (hfits : pos + ctx.extensionSize pos ≤ ctx.dataEnd.toNat)
      (hrest : Leads (ctx.nexthdr pos) (pos + ctx.extensionSize pos) upper) : Leads proto pos upper

variable {ctx} in
theorem Leads.eq_of_not_extension {proto pos upper : Nat} (h : ctx.Leads proto pos upper)
    (hnot : ¬IsExtension proto) : upper = proto := by
  cases h with
  | here => rfl
  | behind hext _ _ => exact absurd hext hnot

/-- One header of the chain. -/
def chainTurn (s : Nat × Nat) : Option Nat ⊕ (Nat × Nat) :=
  if ¬IsExtension s.1 then .inl (some s.1)
  else if s.2 + ctx.extensionSize s.2 ≤ ctx.dataEnd.toNat then
    .inr (ctx.nexthdr s.2, s.2 + ctx.extensionSize s.2)
  else .inl none

/-- Where the chain leads; none if one of its headers is cut off. -/
def upperLayer (proto pos : Nat) : Option Nat :=
  (Loop.result ctx.chainTurn (ctx.dataEnd.toNat - pos + 1) (proto, pos)).join

theorem chain_leads_iff {n proto pos upper : Nat} (hn : ctx.dataEnd.toNat - pos < n) :
    (Loop.result ctx.chainTurn n (proto, pos)).join = some upper ↔ ctx.Leads proto pos upper := by
  induction n generalizing proto pos with
  | zero => exact absurd hn (Nat.not_lt_zero _)
  | succ n ih =>
    rw [Loop.result, chainTurn]
    by_cases hext : IsExtension proto
    · rw [if_neg (not_not.mpr hext)]
      by_cases hfits : pos + ctx.extensionSize pos ≤ ctx.dataEnd.toNat
      · rw [if_pos hfits]
        have hpos : 0 < ctx.extensionSize pos := Nat.mul_pos (by decide) (Nat.succ_pos _)
        have hless : ctx.dataEnd.toNat - (pos + ctx.extensionSize pos) < n := by omega
        refine (ih hless).trans ?_
        constructor
        · exact Leads.behind hext hfits
        · intro h
          cases h with
          | here hnot => exact absurd hext hnot
          | behind _ _ hrest => exact hrest
      · rw [if_neg hfits]
        constructor
        · intro h
          cases h
        · intro h
          cases h with
          | here hnot => exact absurd hext hnot
          | behind _ hle _ => exact absurd hle hfits
    · rw [if_pos hext]
      constructor
      · intro h
        cases h
        exact .here hext
      · intro h
        cases h with
        | here => rfl
        | behind hyes _ _ => exact absurd hyes hext

theorem upperLayer_eq_some {proto pos upper : Nat} :
    ctx.upperLayer proto pos = some upper ↔ ctx.Leads proto pos upper :=
  ctx.chain_leads_iff (Nat.lt_succ_self _)

instance (proto pos upper : Nat) : Decidable (ctx.Leads proto pos upper) :=
  decidable_of_iff _ ctx.upperLayer_eq_some

/-- The protocol byte of the IPv6 header. -/
def ipv6Nexthdr : Nat := ctx.nexthdr (ctx.data.toNat + sizeofEthhdr + 6)

/-- An Ethernet frame with ethertype IPv6 and a complete IPv6 header. -/
def HasIpv6hdr : Prop :=
  ctx.data.toNat + sizeofEthhdr ≤ ctx.dataEnd.toNat ∧
    ctx.mem.load16 (ctx.data.toNat + 12) = htons ETH_P_IPV6 ∧
    ctx.data.toNat + sizeofEthhdr + sizeofIpv6hdr ≤ ctx.dataEnd.toNat

instance : Decidable ctx.HasIpv6hdr := inferInstanceAs (Decidable (_ ∧ _ ∧ _))

/-- A frame that carries TCP over IPv6. -/
def IsTcp6 : Prop :=
  ctx.HasIpv6hdr ∧
    ctx.Leads ctx.ipv6Nexthdr (ctx.data.toNat + sizeofEthhdr + sizeofIpv6hdr) IPPROTO_TCP

instance : Decidable ctx.IsTcp6 := inferInstanceAs (Decidable (_ ∧ _))

/-- A frame that carries TCP over IPv6 behind at least one extension header. -/
def HidesTcp6 : Prop := ctx.IsTcp6 ∧ IsExtension ctx.ipv6Nexthdr

instance : Decidable ctx.HidesTcp6 := inferInstanceAs (Decidable (_ ∧ _))

/-- The program passes a frame exactly if it carries TCP right behind the IPv6 header. -/
theorem passes_tcp6_iff : Passes ETH_P_IPV6 sizeofIpv6hdr 6 IPPROTO_TCP ctx ↔
    ctx.IsTcp6 ∧ ¬ctx.HidesTcp6 := by
  have htcp : ¬IsExtension IPPROTO_TCP := by decide
  constructor
  · intro h
    obtain ⟨heth, htype, hhdr, hproto⟩ := h
    have hnext : ctx.ipv6Nexthdr = IPPROTO_TCP := hproto
    have hleads : ctx.Leads ctx.ipv6Nexthdr (ctx.data.toNat + sizeofEthhdr + sizeofIpv6hdr)
        IPPROTO_TCP := by
      rw [hnext]
      exact .here htcp
    refine ⟨⟨⟨heth, htype, hhdr⟩, hleads⟩, ?_⟩
    intro hhides
    rw [HidesTcp6, hnext] at hhides
    exact htcp hhides.2
  · intro h
    obtain ⟨htcp6, hplain⟩ := h
    have hnot : ¬IsExtension ctx.ipv6Nexthdr := fun hext => hplain ⟨htcp6, hext⟩
    obtain ⟨⟨heth, htype, hhdr⟩, hleads⟩ := htcp6
    exact ⟨heth, htype, hhdr, (hleads.eq_of_not_extension hnot).symm⟩

end XdpMd

/-- The counter after the frames have gone through the program one after the other. -/
def Program.counterAfter (prog : Program) (init : BitVec 64) (frames : List XdpMd) : BitVec 64 :=
  Access.exec init 0 (frames.flatMap fun ctx => (prog.acceptAll ctx).accesses)

theorem countProto_increase (ethertype sizeofHdr protoAt proto : Nat) (ctx : XdpMd) :
    (countProto ethertype sizeofHdr protoAt proto ctx).accesses = [] ∨
      ∃ n, (countProto ethertype sizeofHdr protoAt proto ctx).accesses = Access.increase n := by
  simp only [countProto]
  split_ifs with heth htype hhdr hproto
  · exact .inl rfl
  · exact .inl rfl
  · exact .inl rfl
  · exact .inl rfl
  · exact .inr ⟨1, rfl⟩

theorem accesses_increase (prog : Program) (ctx : XdpMd) :
    (prog.acceptAll ctx).accesses = [] ∨ ∃ n, (prog.acceptAll ctx).accesses = Access.increase n := by
  cases prog with
  | count => exact .inr ⟨_, rfl⟩
  | bytes => exact .inr ⟨_, rfl⟩
  | udp4count => exact countProto_increase ..
  | tcp6count => exact countProto_increase ..

theorem counterAfter_eq (prog : Program) (init : BitVec 64) (frames : List XdpMd) :
    prog.counterAfter init frames = init + (frames.map prog.amount).sum := by
  rw [Program.counterAfter,
    Access.exec_flatMap_increase init 0 frames fun ctx _ => accesses_increase prog ctx,
    Access.due_flatMap]
  simp only [due_accesses]

theorem sum_amount_tcp6 (frames : List XdpMd) : (frames.map Program.tcp6count.amount).sum =
    BitVec.ofNat 64 (frames.countP fun ctx => decide (ctx.IsTcp6 ∧ ¬ctx.HidesTcp6)) := by
  induction frames with
  | nil => rfl
  | cons ctx frames ih =>
    rw [List.map_cons, List.sum_cons, ih, List.countP_cons, BitVec.ofNat_add, BitVec.add_comm]
    congr 1
    by_cases h : ctx.IsTcp6 ∧ ¬ctx.HidesTcp6
    · rw [if_pos (decide_eq_true h)]
      exact if_pos (ctx.passes_tcp6_iff.mpr h)
    · rw [if_neg (by rwa [decide_eq_true_iff])]
      exact if_neg (mt ctx.passes_tcp6_iff.mp h)

/-- Frames with TCP behind the IPv6 header are those that pass and those that hide it. -/
theorem countP_tcp6 (frames : List XdpMd) : frames.countP (fun ctx => decide ctx.IsTcp6) =
    frames.countP (fun ctx => decide (ctx.IsTcp6 ∧ ¬ctx.HidesTcp6)) +
      frames.countP fun ctx => decide ctx.HidesTcp6 := by
  induction frames with
  | nil => rfl
  | cons ctx frames ih =>
    have hsub : ctx.HidesTcp6 → ctx.IsTcp6 := And.left
    simp only [List.countP_cons, ih]
    by_cases hhides : ctx.HidesTcp6
    · simp [hhides, hsub hhides, Nat.add_assoc]
    · by_cases htcp : ctx.IsTcp6
      · simp [hhides, htcp, Nat.add_right_comm]
      · simp [hhides, htcp]

theorem ofNat_eq_zero_iff (n : Nat) : BitVec.ofNat 64 n = 0 ↔ 2 ^ 64 ∣ n := by
  rw [← BitVec.toNat_inj, BitVec.toNat_ofNat, Nat.dvd_iff_mod_eq_zero]
  rfl

/-- Every byte of the frame that is read lies in it. -/
theorem countProto_reads {ethertype sizeofHdr protoAt proto : Nat} (h : protoAt < sizeofHdr)
    (ctx : XdpMd) : ∀ i ∈ (countProto ethertype sizeofHdr protoAt proto ctx).reads,
      ctx.data.toNat ≤ i ∧ i < ctx.dataEnd.toNat := by
  intro i hi
  simp only [countProto] at hi
  unfold sizeofEthhdr at hi
  split_ifs at hi with heth htype hhdr hproto
  · cases hi
  all_goals
    simp only [List.mem_cons, List.not_mem_nil, or_false] at hi
    omega

/-- `xdp-tcp6count` reads nothing behind the frame, and the counter grows by the number of frames
that carry TCP over IPv6 exactly if the frames with TCP behind an extension header make up a
multiple of the counter's modulus. -/
theorem tcp6count_counts_iff (init : BitVec 64) (frames : List XdpMd) :
    (∀ ctx ∈ frames, ∀ i ∈ (XdpTcp6count.acceptAll ctx).reads,
      ctx.data.toNat ≤ i ∧ i < ctx.dataEnd.toNat) ∧
    (Program.tcp6count.counterAfter init frames =
        init + BitVec.ofNat 64 (frames.countP fun ctx => decide ctx.IsTcp6) ↔
      2 ^ 64 ∣ frames.countP fun ctx => decide ctx.HidesTcp6) := by
  refine ⟨fun ctx _ => countProto_reads (by decide) ctx, ?_⟩
  rw [counterAfter_eq, sum_amount_tcp6, countP_tcp6, BitVec.ofNat_add, ← BitVec.add_assoc,
    eq_comm, add_eq_left]
  exact ofNat_eq_zero_iff _

/-- An Ethernet frame with an IPv6 header, the hop-by-hop header behind it, and a TCP header. -/
def hopFrame : XdpMd where
  mem := Mem.write (fun _ => 0) 256 (List.replicate 12 2 ++ [0x86, 0xdd] ++
    [0x60, 0, 0, 0, 0, 28, 0, 64] ++ List.replicate 32 1 ++ [6, 0, 1, 4, 0, 0, 0, 0])
  data := 256
  dataEnd := 338
  data_le := by decide

/-- A TCP segment behind a hop-by-hop header is not counted. -/
theorem tcp6count_misses :
    Program.tcp6count.counterAfter 0 [hopFrame] ≠
      0 + BitVec.ofNat 64 ([hopFrame].countP fun ctx => decide ctx.IsTcp6) := by
  have hcount : Program.tcp6count.counterAfter 0 [hopFrame] = 0 := by decide +kernel
  have htcp : [hopFrame].countP (fun ctx => decide ctx.IsTcp6) = 1 := by decide +kernel
  rw [hcount, htcp]
  decide

end SnippetsC.Bpf
