import SnippetsC.Framework.NamedTable
import SnippetsC.Netlink.LinkState
import SnippetsC.Netlink.Requests
import SnippetsC.Netlink.SetIfname

namespace SnippetsC.Netlink

/-! The links of a network namespace and the requests that change them. -/

/-- What the programs decide about a link. Of its flags that is `IFF_UP` only. -/
structure LinkView where
  up : Bool
  mtu : Nat
  name : List UInt8
  deriving DecidableEq

def isUp (flags : BitVec 32) : Bool := flags &&& .ofNat 32 IFF_UP ≠ 0

@[simp] theorem isUp_zero : isUp 0#32 = false := by decide

@[simp] theorem isUp_up : isUp (BitVec.ofNat 32 IFF_UP) = true := by decide

def LinkState.view (link : LinkState) : LinkView := ⟨isUp link.flags, link.mtu, link.name⟩

/-- How the kernel sets the flag word `old` of a link on a request with `ifi_flags` and
`ifi_change`. `IFF_UP` follows the mask; what becomes of the other flags is up to the kernel. -/
structure FlagRule where
  set : (old flags change : BitVec 32) → BitVec 32
  up : ∀ old flags change, change ≠ 0 →
    isUp (set old flags change) = isUp ((flags &&& change) ||| (old &&& ~~~change))

/-- The effect of the request at the start of `m`. -/
def FlagRule.apply (rule : FlagRule) (m : Mem) (link : LinkState) : LinkState :=
  let ifi := nlmsgData 0
  { link.apply m with
    flags := rule.set link.flags (.ofNat 32 (m.load32 (ifi + 8))) (.ofNat 32 (m.load32 (ifi + 12))) }

/-- The links by index and by name; 0 is no index. -/
structure Links extends NamedTable UInt32 LinkState.name where
  zero : entry 0 = none

namespace Links

theorem index_ne (l : Links) {name : List UInt8} {i : UInt32} (h : l.find name = some i) :
    i ≠ 0 := by
  intro hi
  obtain ⟨a, ha, -⟩ := l.entry_of_find h
  rw [hi, l.zero] at ha
  cases ha

/-- The names as `if_nametoindex` knows them. -/
def interfaces (l : Links) : Interfaces where
  index name := l.find name.chars
  index_ne _ _ h := l.index_ne h

/-- What the programs decide about each link. -/
def view (l : Links) (i : UInt32) : Option LinkView := (l.entry i).map LinkState.view

/-- Change link `i` unless another one has the new name. -/
def set (l : Links) (i : UInt32) (new : Option LinkState) : Links :=
  if h : i = 0 then l
  else
    { toNamedTable := l.put i new
      zero := by
        by_cases htaken : l.Taken i (new.map LinkState.name)
        · rw [l.put_of_taken htaken]
          exact l.zero
        · rw [l.put_entry htaken, Function.update_of_ne (Ne.symm h)]
          exact l.zero }

/-- The link that a request with these parts is for; without an index its name tells. -/
def target (l : Links) (ifindex : UInt32) (attrs : List Rtattr) : Option UInt32 :=
  if ifindex ≠ 0 then some ifindex
  else (attrs.find? fun a => a.type = .ofNat IFLA_IFNAME).bind fun a => l.find a.payload

/-- An attribute that names a network namespace. -/
def movesLink (a : Rtattr) : Bool :=
  a.type = .ofNat IFLA_NET_NS_PID ∨ a.type = .ofNat IFLA_NET_NS_FD

/-- What the request at the start of `m` makes of a link; `elsewhere` says whether the network
namespace that it names is another one than this. -/
def result (rule : FlagRule) (elsewhere : Bool) (m : Mem) (link : LinkState) : Option LinkState :=
  if nlmsgType m 0 = RTM_DELLINK ∨ elsewhere = true ∧ (linkAttrs m).any movesLink = true then none
  else some (rule.apply m link)

/-- What the kernel does with the request at the start of `m`. -/
def handle (l : Links) (rule : FlagRule) (elsewhere : Bool) (m : Mem) : Links :=
  if nlmsgType m 0 = RTM_NEWLINK ∨ nlmsgType m 0 = RTM_SETLINK ∨ nlmsgType m 0 = RTM_DELLINK then
    match l.target (.ofNat (linkIndex m)) (linkAttrs m) with
    | none => l
    | some i =>
      match l.entry i with
      | none => l
      | some link => l.set i (result rule elsewhere m link)
  else l

end Links

/-! The programs as far as their call of `sendmsg`. -/

def SetMtu.main (stack : Mem) (socketFd bindRc : Int32) : Sendmsg :=
  ⟨createSocket socketFd bindRc, sendRequest stack⟩

def SetLinkUp.main (stack : Mem) (socketFd bindRc : Int32) (ifaces : Interfaces)
    (argv : List CString) : Option Sendmsg :=
  match argv with
  | _ :: ifName :: _ =>
    some ⟨createSocket socketFd bindRc, sendRequest stack (ifaces.ifNametoindex ifName)⟩
  | _ => none

/-- A program that changes a link, with its arguments; `netnsFd` is what `open` returns. -/
inductive LinkCommand where
  | setMtu
  | setIfname (argv : List CString)
  | setLinkUp (argv : List CString)
  | delLink (argv : List CString)
  | setNetnsPid (argv : List CString)
  | setNetnsFd (netnsFd : Int32) (argv : List CString)

def LinkCommand.main (stack : Mem) (socketFd bindRc : Int32) (ifaces : Interfaces) :
    LinkCommand → Option Sendmsg
  | setMtu => some (SetMtu.main stack socketFd bindRc)
  | setIfname argv => SetIfname.main stack socketFd bindRc ifaces argv
  | setLinkUp argv => SetLinkUp.main stack socketFd bindRc ifaces argv
  | delLink argv => DelLink.main stack socketFd bindRc ifaces argv
  | setNetnsPid argv => SetNetnsPid.main stack socketFd bindRc ifaces argv
  | setNetnsFd netnsFd argv => SetNetnsFd.main stack netnsFd socketFd bindRc ifaces argv

/-- A run of a program: what is on its stack, what its calls come back with, whether the kernel
accepts the request, and how it sets flags then. -/
structure LinkRun where
  command : LinkCommand
  stack : Mem
  socketFd : Int32
  bindRc : Int32
  ok : Bool
  elsewhere : Bool
  rule : FlagRule

/-- A request sent on a socket that is not there goes nowhere; nobody looks at an answer. -/
def Links.perform (l : Links) (r : LinkRun) : Links :=
  match r.command.main r.stack r.socketFd r.bindRc l.interfaces with
  | none => l
  | some call =>
    if 0 ≤ call.fd ∧ r.ok = true then
      l.handle r.rule r.elsewhere (Mem.write (fun _ => 0) 0 call.msg)
    else l

/-! What is meant. -/

/-- A change of a link. -/
inductive LinkChange where
  | mtu
  | name (name : List UInt8)
  | up
  | down
  | leave
  deriving DecidableEq

/-- All but `set-link-up` take the link down. -/
def LinkChange.apply : LinkChange → LinkView → Option LinkView
  | mtu, link => some { link with up := false, mtu := SetMtu.IF_MTU }
  | name n, link => some { link with up := false, name := n }
  | up, link => some { link with up := true }
  | down, link => some { link with up := false }
  | leave, _ => none

/-- The link that a command is for, and the change it asks for. A new name is cut; if there is no
link with the old name, the one that has the new name already is meant. -/
def LinkCommand.meant (l : Links) (elsewhere : Bool) : LinkCommand → Option (UInt32 × LinkChange)
  | setMtu => some (SetMtu.IF_INDEX, .mtu)
  | setIfname (_ :: oldName :: newName :: _) =>
    let name := newName.chars.take 15
    ((l.find oldName.chars).or (l.find name)).map fun i => (i, .name name)
  | setLinkUp (_ :: ifName :: _) => (l.find ifName.chars).map fun i => (i, .up)
  | delLink (_ :: ifName :: _) => (l.find ifName.chars).map fun i => (i, .leave)
  | setNetnsPid (_ :: ifName :: pid :: _) =>
    if atoi pid.chars = 0 then none
    else (l.find ifName.chars).map fun i => (i, if elsewhere then .leave else .down)
  | setNetnsFd netnsFd (_ :: ifName :: _ :: _) =>
    if netnsFd = -1 then none
    else (l.find ifName.chars).map fun i => (i, if elsewhere then .leave else .down)
  | _ => none

/-- The link is there, and no other one has the name that it is given. -/
def Links.Possible (l : Links) (c : UInt32 × LinkChange) : Prop :=
  (l.view c.1).isSome ∧ ¬l.Taken c.1 (((l.view c.1).bind c.2.apply).map LinkView.name)

instance (l : Links) (c : UInt32 × LinkChange) : Decidable (l.Possible c) :=
  inferInstanceAs (Decidable (_ ∧ _))

/-- The change that a run makes. -/
def Links.change (l : Links) (r : LinkRun) : Option (UInt32 × LinkChange) :=
  if 0 ≤ createSocket r.socketFd r.bindRc ∧ r.ok = true then
    (r.command.meant l r.elsewhere).filter fun c => l.Possible c
  else none

end SnippetsC.Netlink
