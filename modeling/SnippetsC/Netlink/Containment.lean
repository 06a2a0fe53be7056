import SnippetsC.Netlink.Listeners
import SnippetsC.Netlink.ReceiveWalk

namespace SnippetsC.Netlink

/-! Whether the attribute walks stay inside the message they belong to. -/

/-- The attribute headers that `RTA_OK` looks at in a loop that starts with `rta` and `len`. -/
def rtaHeaders (m : Mem) (rta : Nat) (len : Int) : List Nat :=
  if _h : RtaOk m rta len then rta :: rtaHeaders m (rtaNext m rta) (rtaRest m rta len)
  else if (sizeofRtattr : Int) ≤ len then [rta] else []
termination_by len.toNat
decreasing_by exact rtaRest_toNat_lt _h

theorem rtaHeaders_eq {m : Mem} {p : Nat} {len : Int} (hl : len < 2 ^ 31) :
    rtaHeaders m p len = rtaFormat.headers m p len := by
  induction p, len using parseRtas.induct (m := m) with
  | case1 p len h ih =>
    have hs := rtaFormat.size_le_step m p
    have hr := rtaRest_eq h hl
    rw [rtaHeaders, dif_pos h, rtaFormat.headers_of_ok (rtaOk_iff.mp h), ih (by omega), hr,
      rtaNext_eq]
  | case2 p len h =>
    rw [rtaHeaders, dif_neg h, rtaFormat.headers_of_not_ok fun hok => h (rtaOk_iff.mpr hok)]
    rfl

theorem rtaCalls_flagLines (flags : Nat) (texts : List (Nat × String)) :
    rtaCalls (IfFlags.flagLines flags texts) = [] := by
  induction texts with
  | nil => rfl
  | cons x texts ih =>
    rw [IfFlags.flagLines, List.filter_cons]
    split_ifs
    · exact ih
    · exact ih

namespace Listener

/-- The attribute headers that the listener looks at, behind a fixed struct of `size` bytes. -/
def headersBehind (size : Nat) (m : Mem) (nh : Nat) : List Extent :=
  (rtaHeaders m (nh + sizeofNlmsghdr + size) (toInt ((nlmsgLen m nh : Int) - size))).map
    fun rta => ⟨rta, sizeofRtattr⟩

def headersRead (l : Listener) (m : Mem) (nh : Nat) : List Extent :=
  l.walksBehind.elim [] fun size => headersBehind size m nh

/-- The attributes that are handed to `parse_rta`, with the extent that `rta_len` gives them. -/
def attributesParsed (l : Listener) (m : Mem) (nh : Nat) : List Extent :=
  (rtaCalls (l.parseMessage m nh)).map fun x => ⟨x.1, rtaLen m x.1⟩

/-- What is read of a message lies in its `nlmsg_len` bytes. -/
def Contained (l : Listener) (m : Mem) (nh : Nat) : Prop :=
  ∀ e ∈ l.fieldsRead nh ++ (l.headersRead m nh ++ l.attributesParsed m nh),
    e.Within nh (nlmsgLen m nh)

instance (l : Listener) (m : Mem) (nh : Nat) : Decidable (l.Contained m nh) :=
  inferInstanceAs (Decidable (∀ _ ∈ _, _))

/-- The messages of a buffer that the listener hands on. -/
def handedOn (l : Listener) (m : Mem) (len : Int) : List Nat :=
  (messageStarts m 0 len).filter fun nh => decide (l.HandsOn m nh)

/-- How many bytes of the fixed struct are read. -/
def fixedRead : Listener → Nat
  | ifEvents verbose => if verbose then 16 else 0
  | ifFlags _ => 12
  | ifAddrs => 8

/-- A walk over exactly the attributes of the message leaves so many bytes that neither they nor
they and the 16 bytes behind the message are an attribute, or so few that both together hold no
attribute header. -/
def AttributesFit (size : Nat) (m : Mem) (nh : Nat) : Prop :=
  let rta := nh + sizeofNlmsghdr + size
  let len : Int := nlmsgLen m nh - (sizeofNlmsghdr + size : Nat)
  let rest := rtaFormat.rest m rta len
  rest + sizeofNlmsghdr < sizeofRtattr ∨
    (sizeofRtattr : Int) ≤ rest ∧ ¬RtaOk m (rtaFormat.stop m rta len) (rest + sizeofNlmsghdr)

/-- The message holds the fixed fields that are read, and its attributes fit. -/
def Fits (l : Listener) (m : Mem) (nh : Nat) : Prop :=
  sizeofNlmsghdr + l.fixedRead ≤ nlmsgLen m nh ∧
    ∀ size ∈ l.walksBehind, AttributesFit size m nh

theorem fieldsRead_within_iff (l : Listener) {nh len : Nat} (h : sizeofNlmsghdr ≤ len) :
    (∀ e ∈ l.fieldsRead nh, e.Within nh len) ↔ sizeofNlmsghdr + l.fixedRead ≤ len := by
  unfold sizeofNlmsghdr at *
  cases l with
  | ifEvents verbose =>
    cases verbose with
    | false => simpa [fieldsRead, fixedRead] using h
    | true =>
      simp only [fieldsRead, fixedRead, IfEvents.ifinfomsgFields, if_true, List.forall_mem_cons,
        Extent.Within, sizeofNlmsghdr]
      simp
      omega
  | ifFlags _ =>
    simp [fieldsRead, fixedRead, IfFlags.ifiIndex, IfFlags.ifiFlags, Extent.Within, sizeofNlmsghdr]
    omega
  | ifAddrs =>
    simp [fieldsRead, fixedRead, IfAddrs.ifaddrmsgFields, Extent.Within, sizeofNlmsghdr]
    omega

theorem rtaCalls_ifEvents {verbose : Bool} {m : Mem} {nh : Nat}
    (h : (ifEvents verbose).HandsOn m nh) :
    rtaCalls (IfEvents.parseMessage verbose m nh) =
      rtaCalls (parseAttributes sizeofIfinfomsg m nh) := by
  have hlink : rtaCalls (IfEvents.parseLinkMessage verbose m nh) =
      rtaCalls (parseAttributes sizeofIfinfomsg m nh) := by
    cases verbose
    · rfl
    · rfl
  rw [← hlink, IfEvents.parseMessage, rtaCalls_append]
  have hverbose : rtaCalls (if verbose then [.print (IfEvents.nlmsghdrText m nh)] else []) = [] := by
    cases verbose
    · rfl
    · rfl
  rw [hverbose, List.nil_append]
  by_cases hnew : nlmsgType m nh = RTM_NEWLINK
  · rw [if_pos hnew, rtaCalls_print]
  · rw [if_neg hnew, if_pos (h.resolve_left hnew), rtaCalls_print]

theorem rtaCalls_ifFlags (uapiDef : Bool) (m : Mem) (nh : Nat) :
    rtaCalls (IfFlags.parseMessage uapiDef m nh) = [] := by
  unfold IfFlags.parseMessage
  split_ifs
  · rw [IfFlags.parseLinkMessage, rtaCalls_print, rtaCalls_append, rtaCalls_flagLines]
    cases uapiDef
    · rfl
    · exact rtaCalls_flagLines _ _
  · rfl

theorem rtaCalls_ifAddrs {m : Mem} {nh : Nat} (h : ifAddrs.HandsOn m nh) :
    rtaCalls (IfAddrs.parseMessage m nh) = rtaCalls (parseAttributes sizeofIfaddrmsg m nh) := by
  unfold IfAddrs.parseMessage
  by_cases hnew : nlmsgType m nh = RTM_NEWADDR
  · rw [if_pos hnew, rtaCalls_print, IfAddrs.parseAddrMessage, rtaCalls_print]
  · rw [if_neg hnew, if_pos (h.resolve_left hnew), rtaCalls_print, IfAddrs.parseAddrMessage,
      rtaCalls_print]

/-- The attributes that a walk behind a fixed struct of `size` bytes hands to `parse_rta`. -/
theorem attributesBehind (size : Nat) (m : Mem) (nh : Nat) :
    (rtaCalls (parseAttributes size m nh)).map (fun x => (⟨x.1, rtaLen m x.1⟩ : Extent)) =
      (rtaFormat.walk m (nh + sizeofNlmsghdr + size) (toInt ((nlmsgLen m nh : Int) - size))).map
        fun q => ⟨q, rtaLen m q⟩ := by
  rw [parseAttributes, rtaCalls_parseRtas (toInt_lt _), List.map_map]
  rfl

theorem attributesParsed_eq {l : Listener} {m : Mem} {nh : Nat} (h : l.HandsOn m nh) :
    l.attributesParsed m nh = l.walksBehind.elim [] fun size =>
      (rtaFormat.walk m (nh + sizeofNlmsghdr + size) (toInt ((nlmsgLen m nh : Int) - size))).map
        fun q => ⟨q, rtaLen m q⟩ := by
  cases l with
  | ifEvents verbose =>
    rw [attributesParsed, parseMessage, watcher, Watcher.parseMessage, rtaCalls_ifEvents h]
    exact attributesBehind sizeofIfinfomsg m nh
  | ifFlags uapiDef =>
    rw [attributesParsed, parseMessage, watcher, Watcher.parseMessage, rtaCalls_ifFlags]
    rfl
  | ifAddrs =>
    rw [attributesParsed, parseMessage, watcher, Watcher.parseMessage, rtaCalls_ifAddrs h]
    exact attributesBehind sizeofIfaddrmsg m nh

/-- The walk that starts 16 bytes too long is contained exactly if the attributes fit. -/
theorem walk_contained_iff {size : Nat} {m : Mem} {nh : Nat} (hl : nlmsgLen m nh ≤ 8192)
    (hsize : size ≤ 16) :
    ((∀ e ∈ headersBehind size m nh, e.Within nh (nlmsgLen m nh)) ∧
      ∀ q ∈ rtaFormat.walk m (nh + sizeofNlmsghdr + size) (toInt ((nlmsgLen m nh : Int) - size)),
        (⟨q, rtaLen m q⟩ : Extent).Within nh (nlmsgLen m nh)) ↔ AttributesFit size m nh := by
  have hlen : toInt ((nlmsgLen m nh : Int) - size) =
      (nlmsgLen m nh - (sizeofNlmsghdr + size : Nat) : Int) + sizeofNlmsghdr := by
    rw [toInt_of_range (by omega) (by omega)]
    push_cast
    omega
  have hwithin : ∀ q n, nh + sizeofNlmsghdr + size ≤ q →
      ((⟨q, n⟩ : Extent).Within nh (nlmsgLen m nh) ↔ (q + n : Int) ≤
        (nh + sizeofNlmsghdr + size : Nat) +
          (nlmsgLen m nh - (sizeofNlmsghdr + size : Nat) : Int)) := by
    intro q n hq
    unfold Extent.Within
    push_cast
    constructor
    · intro hw
      omega
    · intro hw
      exact ⟨by omega, by omega⟩
  have hiff := rtaFormat.contained_iff m (nh + sizeofNlmsghdr + size)
    (nlmsgLen m nh - (sizeofNlmsghdr + size : Nat)) sizeofNlmsghdr
  rw [← rtaOk_iff] at hiff
  refine Iff.trans ?_ hiff
  rw [headersBehind, rtaHeaders_eq (toInt_lt _), hlen, List.forall_mem_map]
  apply and_congr
  · apply forall₂_congr
    intro q hq
    exact hwithin q _ (rtaFormat.le_of_mem_headers hq)
  · apply forall₂_congr
    intro q hq
    rw [rtaFormat_size]
    exact hwithin q _ (rtaFormat.mem_walk hq).1

theorem contained_iff_fits {l : Listener} {m : Mem} {nh : Nat} (h : l.HandsOn m nh)
    (hmin : sizeofNlmsghdr ≤ nlmsgLen m nh) (hl : nlmsgLen m nh ≤ 8192) :
    l.Contained m nh ↔ l.Fits m nh := by
  rw [Contained, Fits, List.forall_mem_append, List.forall_mem_append, attributesParsed_eq h,
    fieldsRead_within_iff l hmin, headersRead]
  apply and_congr_right
  intro _
  cases l with
  | ifEvents verbose =>
    have hsize : sizeofIfinfomsg ≤ 16 := by decide
    have hiff := walk_contained_iff hl hsize
    simpa [walksBehind] using hiff
  | ifFlags uapiDef => simp [walksBehind]
  | ifAddrs =>
    have hsize : sizeofIfaddrmsg ≤ 16 := by decide
    have hiff := walk_contained_iff hl hsize
    simpa [walksBehind] using hiff

theorem handedOn_spec {l : Listener} {stale : Mem} {datagram : List UInt8} {nh : Nat}
    (h : nh ∈ l.handedOn (recvmsg stale datagram).1 (recvmsg stale datagram).2) :
    l.HandsOn (recvmsg stale datagram).1 nh ∧
      sizeofNlmsghdr ≤ nlmsgLen (recvmsg stale datagram).1 nh ∧
        nlmsgLen (recvmsg stale datagram).1 nh ≤ 8192 := by
  have hlen : (recvmsg stale datagram).2 ≤ 8192 := by
    simp only [recvmsg, List.length_take]
    omega
  obtain ⟨hstart, hands⟩ := List.mem_filter.mp h
  obtain ⟨-, hmin, hle⟩ := mem_messageStarts (by omega) hstart
  exact ⟨of_decide_eq_true hands, hmin, by omega⟩

/-- On every datagram, what a listener reads of each message it hands on lies in this message if
and only if each of these messages fits. -/
theorem reads_contained_iff (l : Listener) (stale : Mem) (datagram : List UInt8) :
    (∀ nh ∈ l.handedOn (recvmsg stale datagram).1 (recvmsg stale datagram).2,
        l.Contained (recvmsg stale datagram).1 nh) ↔
      ∀ nh ∈ l.handedOn (recvmsg stale datagram).1 (recvmsg stale datagram).2,
        l.Fits (recvmsg stale datagram).1 nh := by
  apply forall₂_congr
  intro nh hnh
  obtain ⟨hands, hmin, hl⟩ := handedOn_spec hnh
  exact contained_iff_fits hands hmin hl

end Listener

/-- `RTM_NEWLINK` with one attribute, `IFLA_MTU`, and behind it a message of a header only. -/
def mtuThenNoop : List UInt8 :=
  leBytes 4 40 ++ leBytes 2 RTM_NEWLINK ++ List.replicate 26 0 ++
    (leBytes 2 8 ++ leBytes 2 IFLA_MTU ++ leBytes 4 1500) ++
    (leBytes 4 16 ++ leBytes 2 1 ++ List.replicate 10 0)

/-- The second header is read as an attribute of the first message; and `if-flags` reads fields
that a message of a header only does not have. -/
theorem reads_leave_message :
    (¬∀ nh ∈ (Listener.ifEvents false).handedOn (recvmsg (fun _ => 0) mtuThenNoop).1
        (recvmsg (fun _ => 0) mtuThenNoop).2,
      (Listener.ifEvents false).Contained (recvmsg (fun _ => 0) mtuThenNoop).1 nh) ∧
    ¬∀ nh ∈ (Listener.ifFlags true).handedOn
        (recvmsg (fun _ => 0) (leBytes 4 16 ++ leBytes 2 RTM_NEWLINK ++ List.replicate 10 0)).1 16,
      (Listener.ifFlags true).Contained
        (recvmsg (fun _ => 0) (leBytes 4 16 ++ leBytes 2 RTM_NEWLINK ++ List.replicate 10 0)).1
        nh := by
  constructor
  · decide +kernel
  · decide +kernel

end SnippetsC.Netlink
