import SnippetsC.Framework.Simulation
import SnippetsC.Netlink.Links

namespace SnippetsC.Netlink

/-! What any number of runs of the programs makes of the links. -/

section decode

variable {m : Mem} {type : Nat} {ifindex : UInt32} {flags : Nat}

end decode

namespace Links

variable (l : Links)

section main

variable (stack : Mem) (rule : FlagRule) (elsewhere : Bool)

end main

end Links

/-! Whether a link is up, its MTU and its name behind some changes. -/

end SnippetsC.Netlink
