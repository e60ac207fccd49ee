import LiberaLink.EtherDream.Options

/-!
# The addresses of the Ether Dream host

Each device of the host listens on an address of its own.  Addresses that the machine does not have are added
to one of its interfaces as aliases, and removed again when the host stops.

* `interfaceAddresses`          the interfaces that are up;
* `IpAliasManager.ensureAlias`  makes sure that an address can be bound;
* `IpAliasManager.allocate`     an address for each device;
* `ensureAlias_cases`           what is left behind when an address is tried;
* `ipv4ToHost_hostToIpv4`       **an address that is written is read back**.
-/

namespace LiberaLink.EtherDream

/-! ## IPv4 addresses -/

/-- a number of an address: digits without a zero in front of others, at most 255 -/
def parseOctet (digits : List Char) : Option Nat :=
  let value := ofDigits digits
  if digits = [] ∨ digits.all Char.isDigit = false ∨ (digits.head? = some '0' ∧ digits.length ≠ 1) ∨
      255 < value then none
  else some value

def ipv4ToHost (text : String) : Option UInt32 :=
  match (text.toList.splitOnP fun c => c = '.').map parseOctet with
  | [some a, some b, some c, some d] => some (.ofNat (((a * 256 + b) * 256 + c) * 256 + d))
  | _ => none

def isValidIpv4 (text : String) : Bool := (ipv4ToHost text).isSome

/-- the number of an address at this place, from the right -/
def octet (value : UInt32) (place : Nat) : Nat := value.toNat / 256 ^ place % 256

def hostToIpv4 (value : UInt32) : String :=
  toString (octet value 3) ++ "." ++ toString (octet value 2) ++ "." ++ toString (octet value 1) ++ "." ++
    toString (octet value 0)

/-! ## interfaces -/

/-- An entry of the list that the system gives; `ifa_addr` has a value if it is an IPv4 address.  The last
address is that of the peer if the interface is point to point. -/
structure Ifaddrs where
  ifa_name : Option String
  up : Bool
  loopback : Bool
  ifa_addr : Option UInt32
  ifa_netmask : Option UInt32
  ifa_broadaddr : Option UInt32

structure InterfaceAddress where
  name : String
  address : String
  netmask : String
  broadcast : String
  addressHost : UInt32
  netmaskHost : UInt32
  broadcastHost : UInt32
  loopback : Bool
  deriving DecidableEq

def interfaceAddress (it : Ifaddrs) : Option InterfaceAddress :=
  match it.ifa_addr, it.ifa_netmask with
  | some addr, some mask =>
    if it.up then
      some {
        name := it.ifa_name.getD ""
        address := hostToIpv4 addr
        netmask := hostToIpv4 mask
        broadcast := (it.ifa_broadaddr.map hostToIpv4).getD ""
        addressHost := addr
        netmaskHost := mask
        broadcastHost := it.ifa_broadaddr.getD ((addr &&& mask) ||| ~~~mask)
        loopback := it.loopback }
    else none
  | _, _ => none

def interfaceAddresses (addrs : List Ifaddrs) : List InterfaceAddress := addrs.filterMap interfaceAddress

/-- the interfaces of a machine -/
structure Interfaces where
  addrs : List Ifaddrs
  defaultInterfaceName : Option String
  loopbackName : String

/-! ## aliases -/

structure AliasRecord where
  interfaceName : String
  address : String
  netmask : String
  loopback : Bool := false
  deriving DecidableEq

/-- What the system answers while the addresses of a start are allocated: if an address can be bound, if
the alias can be added and if the address can be bound then. -/
structure Answers where
  canBind : String → Bool
  addAlias : AliasRecord → Bool
  canBindAlias : AliasRecord → Bool

structure System extends Interfaces, Answers

/-- the address is one, and the system can bind it -/
def canBindAddress (address : String) (answer : Bool) : Bool := isValidIpv4 address && answer

structure IpAliasManager where
  addedAliases : List AliasRecord := []
  /-- the aliases of this host that the machine has -/
  installed : List AliasRecord := []
  deriving DecidableEq

section
variable (options : HostOptions) (system : System)

namespace IpAliasManager

/-- the machine loses an alias -/
def removeAlias (m : IpAliasManager) (record : AliasRecord) : IpAliasManager :=
  { m with installed := m.installed.erase record }

def cleanup (m : IpAliasManager) : IpAliasManager :=
  { m.addedAliases.reverse.foldl removeAlias m with addedAliases := [] }

def ensureAlias (m : IpAliasManager) (record : AliasRecord) : IpAliasManager × Except String Unit :=
  if canBindAddress record.address (system.canBind record.address) then (m, .ok ())
  else if !options.autoManageAliases then
    (m, .error ("Ether Dream address " ++ record.address ++
      " is not assigned locally and auto_manage_aliases is disabled."))
  else if !system.addAlias record then
    (m, .error ("Failed to add Ether Dream IP alias " ++ record.address ++ " on " ++ record.interfaceName ++
      ". Run with privileges or set addresses=... to preconfigured IPs."))
  else
    let m := { m with installed := m.installed ++ [record] }
    if !canBindAddress record.address (system.canBindAlias record) then
      (m.removeAlias record, .error ("Ether Dream IP alias " ++ record.address ++
        " was added but the app still cannot bind to it."))
    else ({ m with addedAliases := m.addedAliases ++ [record] }, .ok ())

end IpAliasManager

/-! ## loopback addresses -/

/-- the record of the loopback address with this index, on a Unix system -/
def loopbackRecord (i : Nat) : AliasRecord :=
  ⟨system.loopbackName, "127.0.0." ++ toString ((i + 1) % 2 ^ 32), "255.0.0.0", true⟩

namespace IpAliasManager

/-- the loop over the indices that are left -/
def loopbackFrom (m : IpAliasManager) (addresses : List String) :
    List Nat → IpAliasManager × Except String (List String)
  | [] => (m, .ok addresses)
  | i :: is =>
    let record := loopbackRecord system i
    match m.ensureAlias options system record with
    | (m, .error error) => (m, .error error)
    | (m, .ok _) => m.loopbackFrom (addresses ++ [record.address]) is

def allocateLoopback (m : IpAliasManager) (count : Nat) : IpAliasManager × Except String (List String) :=
  m.loopbackFrom options system [] (List.range count)

end IpAliasManager

/-! ## addresses of the local network -/

/-- the interfaces that aliases can be added to, that of the default route first -/
def candidateInterfaces (interfaces : Interfaces) : List InterfaceAddress :=
  let candidates := (interfaceAddresses interfaces.addrs).filter fun iface =>
    !iface.loopback && (options.interfaceName = "" || iface.name = options.interfaceName)
  match interfaces.defaultInterfaceName with
  | none => candidates
  | some defaultIface =>
    candidates.filter (fun iface => iface.name = defaultIface) ++
      candidates.filter fun iface => iface.name ≠ defaultIface

/-- the addresses that aliases are taken from lie between these two -/
def searchRange (iface : InterfaceAddress) : Except String (UInt32 × UInt32) :=
  if options.baseAddress = "" then
    let network := iface.addressHost &&& iface.netmaskHost
    .ok (network, if iface.broadcastHost ≠ 0 then iface.broadcastHost else network ||| ~~~iface.netmaskHost)
  else match ipv4ToHost options.baseAddress with
    | none => .error ("Invalid Ether Dream base_address: " ++ options.baseAddress)
    | some base =>
      let network := base &&& iface.netmaskHost
      .ok (network, network ||| ~~~iface.netmaskHost)

/-- the values that the search takes: down from `candidate` as long as they are above `network` -/
def searchValues (network candidate : UInt32) : List UInt32 :=
  if h : network < candidate then candidate :: searchValues network (candidate - 1) else []
termination_by candidate.toNat
decreasing_by
  have hlt := UInt32.lt_iff_toNat_lt.mp h
  have hone : (1 : UInt32) ≤ candidate := UInt32.le_iff_toNat_le.mpr (show 1 ≤ candidate.toNat by omega)
  rw [UInt32.toNat_sub_of_le _ _ hone]
  have : (1 : UInt32).toNat = 1 := rfl
  omega

namespace IpAliasManager

/-- the loop over the values that are left -/
def searchFrom (m : IpAliasManager) (iface : InterfaceAddress) (count : Nat) (existing : List UInt32)
    (allocated : List String) : List UInt32 → IpAliasManager × Except String (List String)
  | [] =>
    (m, .error ("Could not allocate enough Ether Dream alias addresses on interface " ++ iface.name ++ "."))
  | candidate :: candidates =>
    if candidate ∈ existing ∨ candidate = iface.addressHost then
      m.searchFrom iface count existing allocated candidates
    else
      -- the text of an address is never empty
      let address := hostToIpv4 candidate
      match m.ensureAlias options system ⟨iface.name, address, iface.netmask, false⟩ with
      | (m, .error error) => (m, .error error)
      | (m, .ok _) =>
        let allocated := allocated ++ [address]
        if allocated.length = count then (m, .ok allocated)
        else m.searchFrom iface count (candidate :: existing) allocated candidates

def allocateLan (m : IpAliasManager) (count : Nat) : IpAliasManager × Except String (List String) :=
  let allInterfaces := interfaceAddresses system.addrs
  if allInterfaces = [] then
    if count = 1 then (m, .ok ["127.0.0.1"])
    else (m, .error "No IPv4 interface is available for Ether Dream aliases.")
  else match candidateInterfaces options system.toInterfaces with
    | [] =>
      if count = 1 then (m, .ok ["127.0.0.1"])
      else (m, .error (if options.interfaceName = "" then
        "No non-loopback IPv4 interface is available for Ether Dream aliases."
        else "Configured Ether Dream interface is not available: " ++ options.interfaceName))
    | iface :: _ =>
      if count = 1 ∧ options.baseAddress = "" then (m, .ok [iface.address])
      else match searchRange options iface with
        | .error error => (m, .error error)
        | .ok (network, broadcast) =>
          if broadcast ≤ network + 1 then
            (m, .error "Ether Dream interface subnet has no usable alias addresses.")
          else
            m.searchFrom options system iface count (allInterfaces.map fun iface => iface.addressHost) []
              (searchValues network (broadcast - 1))

/-- the addresses of the option, checked one by one -/
def explicitFrom : List String → Except String (List String)
  | [] => .ok []
  | address :: rest =>
    if !isValidIpv4 address then .error ("Invalid Ether Dream explicit IPv4 address: " ++ address)
    else (explicitFrom rest).map (address :: ·)

def allocate (m : IpAliasManager) (count : Nat) : IpAliasManager × Except String (List String) :=
  let m := m.cleanup
  if options.explicitAddresses ≠ [] then
    if options.explicitAddresses.length < count then
      (m, .error "Ether Dream explicit address list has fewer addresses than targets.")
    else (m, explicitFrom (options.explicitAddresses.take count))
  else if options.ipMode = "explicit" then
    (m, .error "Ether Dream ip_mode=explicit requires addresses=ip1,ip2,...")
  else if count = 0 then (m, .ok [])
  else if options.ipMode = "loopback" then m.allocateLoopback options system count
  else m.allocateLan options system count

end IpAliasManager

/-! ## what is left behind when an address is tried -/

namespace System

/-- the address can be bound as it is -/
def bound (record : AliasRecord) : Bool := canBindAddress record.address (system.canBind record.address)

/-- the address has to be added, and can be bound then -/
def added (record : AliasRecord) : Bool :=
  !system.bound record && options.autoManageAliases && system.addAlias record &&
    canBindAddress record.address (system.canBindAlias record)

def usable (record : AliasRecord) : Bool := system.bound record || system.added options record

end System

namespace IpAliasManager
variable {options system} {m : IpAliasManager} {record : AliasRecord}

/-- a manager with one alias more -/
def add (m : IpAliasManager) (record : AliasRecord) : IpAliasManager :=
  ⟨m.addedAliases ++ [record], m.installed ++ [record]⟩

/-- What is left behind when an address is tried: nothing, or an alias that can be bound. -/
theorem ensureAlias_cases (hnew : record ∉ m.installed) :
    (system.bound record = true ∧ m.ensureAlias options system record = (m, .ok ())) ∨
      (system.added options record = true ∧
        m.ensureAlias options system record = (m.add record, .ok ())) ∨
      (system.usable options record = false ∧
        ∃ error, m.ensureAlias options system record = (m, .error error)) := by
  unfold ensureAlias
  cases hbound : system.bound record with
  | true => exact .inl ⟨rfl, if_pos hbound⟩
  | false =>
    have hnot : ¬canBindAddress record.address (system.canBind record.address) = true := by
      rw [Bool.not_eq_true]
      exact hbound
    rw [if_neg hnot]
    cases hauto : options.autoManageAliases with
    | false =>
      refine .inr (.inr ⟨?_, _, rfl⟩)
      rw [System.usable, System.added, hbound, hauto]
      rfl
    | true =>
      rw [if_neg (by decide)]
      cases hadd : system.addAlias record with
      | false =>
        refine .inr (.inr ⟨?_, _, rfl⟩)
        rw [System.usable, System.added, hbound, hauto, hadd]
        rfl
      | true =>
        rw [if_neg (by decide)]
        cases hbind : canBindAddress record.address (system.canBindAlias record) with
        | false =>
          -- the alias was added for nothing, and is removed again
          have herase : (m.installed ++ [record]).erase record = m.installed := by
            rw [List.erase_append_right _ hnew, List.erase_cons_head, List.append_nil]
          refine .inr (.inr ⟨?_, ?_⟩)
          · rw [System.usable, System.added, hbound, hauto, hadd, hbind]
            rfl
          · simp only [removeAlias, herase]
            exact ⟨_, rfl⟩
        | true =>
          refine .inr (.inl ⟨?_, rfl⟩)
          rw [System.added, hbound, hauto, hadd, hbind]
          rfl

end IpAliasManager
end

/-! ## the texts of addresses -/

theorem dot_not_mem_toString (n : Nat) : ∀ c ∈ (toString n).toList, (decide (c = '.')) = false := by
  rw [Nat.toString_eq_repr, Nat.toList_repr]
  intro c hc
  refine decide_eq_false ?_
  rintro rfl
  exact absurd (Nat.isDigit_of_mem_toDigits (by decide) (by decide) hc) (by decide)

theorem parseOctet_toString : ∀ n < 256, parseOctet (toString n).toList = some n := by
  decide +kernel

theorem octet_lt (value : UInt32) (place : Nat) : octet value place < 256 := Nat.mod_lt _ (by decide)

/-- a number is made of its octets -/
theorem toNat_eq_octets (value : UInt32) :
    value.toNat = ((octet value 3 * 256 + octet value 2) * 256 + octet value 1) * 256 + octet value 0 := by
  have hlt := value.toNat_lt
  simp only [octet]
  omega

theorem splitOnP_hostToIpv4 (value : UInt32) :
    ((hostToIpv4 value).toList.splitOnP fun c => c = '.') =
      [(toString (octet value 3)).toList, (toString (octet value 2)).toList,
        (toString (octet value 1)).toList, (toString (octet value 0)).toList] := by
  have htext : (hostToIpv4 value).toList = (toString (octet value 3)).toList ++ '.' ::
      ((toString (octet value 2)).toList ++ '.' ::
        ((toString (octet value 1)).toList ++ '.' :: (toString (octet value 0)).toList)) := by
    unfold hostToIpv4
    simp [String.toList_append]
  rw [htext, List.splitOnP_append_cons_of_forall_mem (dot_not_mem_toString _) '.' rfl,
    List.splitOnP_append_cons_of_forall_mem (dot_not_mem_toString _) '.' rfl,
    List.splitOnP_append_cons_of_forall_mem (dot_not_mem_toString _) '.' rfl,
    List.splitOnP_eq_singleton (dot_not_mem_toString _)]

/-- **An address that is written is read back.** -/
theorem ipv4ToHost_hostToIpv4 (value : UInt32) : ipv4ToHost (hostToIpv4 value) = some value := by
  unfold ipv4ToHost
  rw [splitOnP_hostToIpv4]
  simp only [List.map_cons, List.map_nil, parseOctet_toString _ (octet_lt _ _)]
  rw [← toNat_eq_octets, UInt32.ofNat_toNat]

theorem hostToIpv4_injective : Function.Injective hostToIpv4 := by
  intro a b h
  have hread := congrArg ipv4ToHost h
  rw [ipv4ToHost_hostToIpv4, ipv4ToHost_hostToIpv4] at hread
  exact Option.some.inj hread

end LiberaLink.EtherDream
