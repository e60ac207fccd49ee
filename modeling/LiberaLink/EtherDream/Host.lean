import LiberaLink.Lib.Reach
import LiberaLink.EtherDream.Subnet
import LiberaLink.Sink.Types

/-!
# The Ether Dream host

The host allocates an address for each target, adding aliases where the machine does not have them, and starts
a device on each.  Either can fail halfway.

* `EtherDreamHost.start`, `EtherDreamHost.stop`   the calls of the host;
* `recordsTried`, `keptAliases`                   the addresses that an allocation tries, and the aliases that
                                                  it adds and keeps;
* `allocate_manager`                              **what an allocation leaves, also when it fails**;
* `aliases_left`                                  **the installed aliases are the recorded ones**, and none stay
                                                  behind, in any history of the host in which no allocation fails
                                                  after it has added an alias.
-/

namespace LiberaLink.EtherDream
open Stepwise

/-! ## devices -/

def stableByteHash (text : String) (salt : UInt8) : UInt8 :=
  let value := text.toUTF8.toList.foldl (fun value ch => (value ^^^ ch.toUInt32) * 16777619)
    (2166136261 ^^^ salt.toUInt32)
  ((value >>> 16) ^^^ (value >>> 8) ^^^ value).toUInt8

def makeMacAddress (info : TargetInfo) (index : Nat) : List UInt8 :=
  let seed := if info.id ≠ "" then info.id else info.label
  [0x02, 0x4c, 0x4c, stableByteHash seed 0x11, stableByteHash seed 0x37,
    .ofNat ((stableByteHash seed 0x73).toNat + index)]

def formatMac (mac : List UInt8) : String :=
  ":".intercalate (mac.map fun byte =>
    .ofList [Nat.digitChar (byte.toNat / 16), Nat.digitChar (byte.toNat % 16)])

def revisionPortOffset (ports : DefaultPorts) (tcpPort : Nat) : Nat :=
  if tcpPort < ports.tcp.toNat then 0 else tcpPort - ports.tcp.toNat

structure VirtualEtherDreamDevice where
  target : TargetInfo
  address : String
  mac : List UInt8

def VirtualEtherDreamDevice.endpoint (ports : DefaultPorts) (options : HostOptions)
    (device : VirtualEtherDreamDevice) : VirtualControllerEndpoint where
  targetId := device.target.id
  label := "Ether Dream " ++ formatMac device.mac
  value := device.address ++ ":" ++ toString options.tcpPort
  kind := "network-socket"
  protocol := "Ether Dream"
  transport := "tcp"
  address := device.address
  port := options.tcpPort
  attributes := (((Finmap.singleton "mac" (formatMac device.mac)).insert
    "discovery_port" (toString options.discoveryPort)).insert "hardware_revision" "0").insert
    "software_revision" (toString (revisionPortOffset ports options.tcpPort))

/-! ## the host -/

/-- What happens during a start: the answers of the system, and the errors of the devices that do not
start, each by its index. -/
structure Startup where
  system : System
  deviceError : Nat → Option String

structure EtherDreamHost where
  ports : DefaultPorts
  options : HostOptions
  aliasManager : IpAliasManager := {}
  devices : List VirtualEtherDreamDevice := []
  endpoints : List VirtualControllerEndpoint := []
  active : Bool := false

/-- the loop of `start` over the targets from this index on -/
def startDevices (addresses : List String) (deviceError : Nat → Option String) :
    Nat → List TargetInfo → List VirtualEtherDreamDevice → Except String (List VirtualEtherDreamDevice)
  | _, [], devices => .ok devices
  | i, info :: infos, devices =>
    match deviceError i with
    | some error => .error error
    | none =>
      startDevices addresses deviceError (i + 1) infos
        (devices ++ [⟨info, addresses.getD i "", makeMacAddress info i⟩])

namespace EtherDreamHost

def new (ports : DefaultPorts) (config : VirtualControllerHostConfig) : EtherDreamHost where
  ports := ports
  options := makeHostOptions ports config

/-- the targets are given by the info of their sinks, if they have one -/
def start (h : EtherDreamHost) (targets : List (Option TargetInfo)) (startup : Startup) :
    EtherDreamHost × Except String Unit :=
  if h.active then (h, .error "Ether Dream virtual controller host is already running.")
  else
    let validTargets := targets.filterMap id
    if validTargets = [] then (h, .error "No Ether Dream targets were created.")
    else match h.aliasManager.allocate h.options startup.system validTargets.length with
      | (m, .error error) => ({ h with aliasManager := m }, .error error)
      | (m, .ok addresses) =>
        match startDevices addresses startup.deviceError 0 validTargets [] with
        | .error error => ({ h with aliasManager := m.cleanup }, .error error)
        | .ok devices =>
          ({ h with
              aliasManager := m
              devices := devices
              endpoints := devices.map fun device => device.endpoint h.ports h.options
              active := true }, .ok ())

def stop (h : EtherDreamHost) : EtherDreamHost :=
  { h with devices := [], endpoints := [], aliasManager := h.aliasManager.cleanup, active := false }

end EtherDreamHost

inductive HostCall where
  | start (targets : List (Option TargetInfo)) (startup : Startup)
  | stop

def HostCall.run (h : EtherDreamHost) : HostCall → EtherDreamHost
  | .start targets startup => (h.start targets startup).1
  | .stop => h.stop

/-! ## what is left behind when addresses are tried one after the other -/

section
variable (options : HostOptions) (system : System)

/-- the aliases that are added and kept when these are tried in turn, up to the first that cannot be
used -/
def keptOf (records : List AliasRecord) : List AliasRecord :=
  (records.takeWhile (system.usable options)).filter (system.added options)

variable {options system}

theorem keptOf_cons_bound {record : AliasRecord} (records : List AliasRecord)
    (h : system.bound record = true) :
    keptOf options system (record :: records) = keptOf options system records := by
  have husable : system.usable options record = true := by rw [System.usable, h]; rfl
  have hadded : system.added options record = false := by rw [System.added, h]; rfl
  unfold keptOf
  rw [List.takeWhile_cons, husable, if_pos rfl, List.filter_cons, hadded, if_neg Bool.false_ne_true]

theorem keptOf_cons_added {record : AliasRecord} (records : List AliasRecord)
    (h : system.added options record = true) :
    keptOf options system (record :: records) = record :: keptOf options system records := by
  have husable : system.usable options record = true := by rw [System.usable, h, Bool.or_true]
  unfold keptOf
  rw [List.takeWhile_cons, husable, if_pos rfl, List.filter_cons, h, if_pos rfl]

theorem keptOf_cons_failed {record : AliasRecord} (records : List AliasRecord)
    (h : system.usable options record = false) : keptOf options system (record :: records) = [] := by
  unfold keptOf
  rw [List.takeWhile_cons, h, if_neg Bool.false_ne_true]
  rfl

namespace IpAliasManager

/-- a manager with these aliases more -/
def addAll (m : IpAliasManager) (records : List AliasRecord) : IpAliasManager :=
  ⟨m.addedAliases ++ records, m.installed ++ records⟩

theorem addAll_nil (m : IpAliasManager) : m.addAll [] = m := by
  unfold addAll
  rw [List.append_nil, List.append_nil]

theorem addAll_add (m : IpAliasManager) (record : AliasRecord) (records : List AliasRecord) :
    (m.add record).addAll records = m.addAll (record :: records) := by
  unfold addAll add
  simp only [List.append_assoc, List.singleton_append]

theorem mem_installed_add {m : IpAliasManager} {record r : AliasRecord} (hr : r ∉ m.installed)
    (hne : r ≠ record) : r ∉ (m.add record).installed := by
  intro hmem
  rcases List.mem_append.mp hmem with hmem | hmem
  · exact hr hmem
  · exact hne (List.mem_singleton.mp hmem)

/-! ## the loops over the addresses -/

/-- What the loop over loopback addresses leaves, and when it succeeds. -/
theorem loopbackFrom_manager {is : List Nat} {m : IpAliasManager} {addresses : List String}
    (hnodup : (is.map (loopbackRecord system)).Nodup)
    (hnew : ∀ i ∈ is, loopbackRecord system i ∉ m.installed) :
    (m.loopbackFrom options system addresses is).1 =
        m.addAll (keptOf options system (is.map (loopbackRecord system))) ∧
      ((∃ error, (m.loopbackFrom options system addresses is).2 = .error error) ↔
        ∃ i ∈ is, system.usable options (loopbackRecord system i) = false) := by
  induction is generalizing m addresses with
  | nil =>
    refine ⟨(addAll_nil m).symm, ?_, ?_⟩
    · rintro ⟨error, h⟩
      cases h
    · rintro ⟨i, hi, -⟩
      cases hi
  | cons i is ih =>
    rw [List.map_cons] at hnodup ⊢
    obtain ⟨hfirst, hrest⟩ := List.nodup_cons.mp hnodup
    have hnew' : ∀ j ∈ is, loopbackRecord system j ∉ m.installed :=
      fun j hj => hnew j (List.mem_cons_of_mem _ hj)
    have hlater : (∃ j ∈ i :: is, system.usable options (loopbackRecord system j) = false) ↔
        system.usable options (loopbackRecord system i) = false ∨
          ∃ j ∈ is, system.usable options (loopbackRecord system j) = false := by
      simp only [List.mem_cons, exists_eq_or_imp]
    rw [hlater]
    unfold loopbackFrom
    simp only
    rcases ensureAlias_cases (hnew i List.mem_cons_self) with
      ⟨hbound, hensure⟩ | ⟨hadded, hensure⟩ | ⟨hfailed, error, hensure⟩
    · have husable : system.usable options (loopbackRecord system i) = true := by
        rw [System.usable, hbound]
        rfl
      rw [hensure, keptOf_cons_bound _ hbound, husable]
      exact (ih hrest hnew').imp_right fun herror => herror.trans (by simp)
    · have husable : system.usable options (loopbackRecord system i) = true := by
        rw [System.usable, hadded, Bool.or_true]
      have hnew'' : ∀ j ∈ is, loopbackRecord system j ∉ (m.add (loopbackRecord system i)).installed := by
        intro j hj
        refine mem_installed_add (hnew' j hj) fun heq => hfirst ?_
        rw [← heq]
        exact List.mem_map_of_mem hj
      rw [hensure, keptOf_cons_added _ hadded, husable, ← addAll_add]
      exact (ih hrest hnew'').imp_right fun herror => herror.trans (by simp)
    · rw [hensure, keptOf_cons_failed _ hfailed, addAll_nil]
      exact ⟨rfl, fun _ => .inl hfailed, fun _ => ⟨error, rfl⟩⟩

/-- what a search for one more address tries -/
theorem take_of_lt {existing values : List UInt32} {candidate : UInt32} {n count : Nat} (hlt : n < count)
    (hlisted : candidate ∉ existing) (hfirst : candidate ∉ values) :
    (unlisted existing (candidate :: values)).take (count - n) =
      candidate :: (unlisted (candidate :: existing) values).take (count - (n + 1)) := by
  rw [unlisted_cons_of_not_mem hlisted, unlisted_cons hfirst,
    show count - n = count - (n + 1) + 1 by omega,
    List.take_succ_cons]

/-- What the search of the local network leaves, and when it succeeds. -/
theorem searchFrom_manager {iface : InterfaceAddress} {count : Nat} {values : List UInt32}
    (hnodup : values.Nodup) {m : IpAliasManager} {existing : List UInt32} {allocated : List String}
    (hiface : iface.addressHost ∈ existing) (hcount : allocated.length < count)
    (hnew : ∀ c ∈ values, lanRecord iface c ∉ m.installed) :
    (m.searchFrom options system iface count existing allocated values).1 =
        m.addAll (keptOf options system
          (((unlisted existing values).take (count - allocated.length)).map (lanRecord iface))) ∧
      ((∃ error, (m.searchFrom options system iface count existing allocated values).2 = .error error) ↔
        (∃ c ∈ (unlisted existing values).take (count - allocated.length),
          system.usable options (lanRecord iface c) = false) ∨
        (unlisted existing values).length < count - allocated.length) := by
  induction values generalizing m existing allocated with
  | nil =>
    rw [show unlisted existing [] = [] from rfl, List.take_nil]
    refine ⟨(addAll_nil m).symm, fun _ => .inr ?_, fun _ => ⟨_, rfl⟩⟩
    change 0 < count - allocated.length
    omega
  | cons candidate values ih =>
    obtain ⟨hfirst, hrest⟩ := List.nodup_cons.mp hnodup
    have hnew' : ∀ c ∈ values, lanRecord iface c ∉ m.installed :=
      fun c hc => hnew c (List.mem_cons_of_mem _ hc)
    by_cases hlisted : candidate ∈ existing
    · rw [searchFrom_listed hlisted, unlisted_cons_of_mem hlisted]
      exact ih hrest hiface hcount hnew'
    · rw [searchFrom_unlisted hiface hlisted, take_of_lt hcount hlisted hfirst, List.map_cons,
        unlisted_cons_of_not_mem hlisted, List.length_cons]
      have hlength : (allocated ++ [hostToIpv4 candidate]).length = allocated.length + 1 := by
        rw [List.length_append, List.length_singleton]
      have hlater : ∀ l : List UInt32,
          (∃ c ∈ candidate :: l, system.usable options (lanRecord iface c) = false) ↔
          system.usable options (lanRecord iface candidate) = false ∨
            ∃ c ∈ l, system.usable options (lanRecord iface c) = false := fun l => by
        simp only [List.mem_cons, exists_eq_or_imp]
      rw [hlater]
      -- the rest of the search, from a manager that has tried this address
      have hgo : ∀ m' : IpAliasManager, (∀ c ∈ values, lanRecord iface c ∉ m'.installed) →
          system.usable options (lanRecord iface candidate) = true →
          let r := if (allocated ++ [hostToIpv4 candidate]).length = count then
              (m', .ok (allocated ++ [hostToIpv4 candidate]))
            else m'.searchFrom options system iface count (candidate :: existing)
              (allocated ++ [hostToIpv4 candidate]) values
          r.1 = m'.addAll (keptOf options system (((unlisted (candidate :: existing) values).take
              (count - (allocated.length + 1))).map (lanRecord iface))) ∧
            ((∃ error, r.2 = .error error) ↔
              (system.usable options (lanRecord iface candidate) = false ∨
                ∃ c ∈ (unlisted (candidate :: existing) values).take (count - (allocated.length + 1)),
                  system.usable options (lanRecord iface c) = false) ∨
              (unlisted existing values).length + 1 < count - allocated.length) := by
        intro m' hnew'' husable r
        rw [husable]
        by_cases hlast : (allocated ++ [hostToIpv4 candidate]).length = count
        · rw [hlength] at hlast
          have hr : r = (m', .ok (allocated ++ [hostToIpv4 candidate])) := if_pos (hlength.trans hlast)
          rw [hr, show count - (allocated.length + 1) = 0 by omega, List.take_zero]
          refine ⟨(addAll_nil m').symm, ?_, ?_⟩
          · rintro ⟨error, h⟩
            cases h
          · rintro ((h | ⟨c, hc, -⟩) | h)
            · cases h
            · cases hc
            · omega
        · have hr : r = m'.searchFrom options system iface count (candidate :: existing)
              (allocated ++ [hostToIpv4 candidate]) values := if_neg hlast
          rw [hlength] at hlast
          rw [hr]
          have h := ih hrest (List.mem_cons_of_mem candidate hiface)
            (show (allocated ++ [hostToIpv4 candidate]).length < count by rw [hlength]; omega) hnew''
          rw [hlength, unlisted_cons hfirst] at h
          rw [unlisted_cons hfirst]
          refine h.imp_right fun herror => herror.trans ?_
          simp only [Bool.true_eq_false, false_or]
          exact or_congr_right (by omega)
      rcases ensureAlias_cases (hnew candidate List.mem_cons_self) with
        ⟨hbound, hensure⟩ | ⟨hadded, hensure⟩ | ⟨hfailed, error, hensure⟩
      · have husable : system.usable options (lanRecord iface candidate) = true := by
          rw [System.usable, hbound]
          rfl
        rw [hensure, keptOf_cons_bound _ hbound]
        exact hgo m hnew' husable
      · have husable : system.usable options (lanRecord iface candidate) = true := by
          rw [System.usable, hadded, Bool.or_true]
        rw [hensure, keptOf_cons_added _ hadded, ← addAll_add]
        refine hgo _ (fun c hc => mem_installed_add (hnew' c hc) fun heq => ?_) husable
        have hsame := hostToIpv4_injective (congrArg AliasRecord.address heq)
        exact hfirst (hsame ▸ hc)
      · rw [hensure, keptOf_cons_failed _ hfailed, addAll_nil]
        exact ⟨rfl, fun _ => .inl (.inl hfailed), fun _ => ⟨error, rfl⟩⟩

/-- an error ends the loop, whatever comes behind it -/
theorem loopbackFrom_append {is : List Nat} {m : IpAliasManager} {addresses : List String}
    {error : String}
    (h : (m.loopbackFrom options system addresses is).2 = .error error) (js : List Nat) :
    m.loopbackFrom options system addresses (is ++ js) = m.loopbackFrom options system addresses is := by
  induction is generalizing m addresses with
  | nil => cases h
  | cons i is ih =>
    rw [List.cons_append]
    unfold loopbackFrom at h ⊢
    simp only at h ⊢
    split
    · rfl
    · rename_i m' hensure
      rw [hensure] at h
      exact ih h

end IpAliasManager

/-- the address with the index 255 is none -/
theorem loopbackRecord_unusable : system.usable options (loopbackRecord system 255) = false := by
  have haddress : "127.0.0." ++ toString ((255 + 1) % 2 ^ 32) = "127.0.0.256" := by decide +kernel
  have hinvalid : isValidIpv4 "127.0.0.256" = false := by decide +kernel
  unfold System.usable System.added System.bound canBindAddress loopbackRecord
  simp only
  rw [haddress, hinvalid, Bool.false_and, Bool.false_and, Bool.and_false]
  rfl

theorem loopbackRecord_inj {i j : Nat} (hi : i < 256) (hj : j < 256)
    (h : loopbackRecord system i = loopbackRecord system j) : i = j := by
  have haddress : "127.0.0." ++ toString ((i + 1) % 2 ^ 32) = "127.0.0." ++ toString ((j + 1) % 2 ^ 32) :=
    congrArg AliasRecord.address h
  have hlist := congrArg String.toList haddress
  rw [String.toList_append, String.toList_append] at hlist
  have hdigits := List.append_cancel_left hlist
  rw [Nat.toString_eq_repr, Nat.toString_eq_repr, Nat.toList_repr, Nat.toList_repr] at hdigits
  have hnumber : (i + 1) % 2 ^ 32 = (j + 1) % 2 ^ 32 := by
    rw [← @Nat.ofDigitChars_ten_toDigits ((i + 1) % 2 ^ 32), hdigits, Nat.ofDigitChars_ten_toDigits]
  omega

theorem loopbackRecords_nodup {n : Nat} (hn : n ≤ 256) :
    ((List.range n).map (loopbackRecord system)).Nodup := by
  refine List.Nodup.map_on (fun i hi j hj heq => ?_) List.nodup_range
  rw [List.mem_range] at hi hj
  exact loopbackRecord_inj (by omega) (by omega) heq

/-! ## what an allocation leaves -/

variable (options system)

/-- the records that the search of the local network tries one after the other -/
def lanTried (count : Nat) : List AliasRecord :=
  match (candidateInterfaces options system.toInterfaces).head? with
  | none => []
  | some iface =>
    if count = 1 ∧ options.baseAddress = "" then []
    else match searchRange options iface with
      | .error _ => []
      | .ok (network, broadcast) =>
        if broadcast ≤ network + 1 then []
        else ((unlisted (listed system.toInterfaces) (searchValues network (broadcast - 1))).take count).map
          (lanRecord iface)

/-- The records of the addresses that an allocation tries one after the other; the loopback address with
the index 255 is none, and ends it. -/
def recordsTried (count : Nat) : List AliasRecord :=
  if options.explicitAddresses ≠ [] ∨ options.ipMode = "explicit" ∨ count = 0 then []
  else if options.ipMode = "loopback" then (List.range (min count 256)).map (loopbackRecord system)
  else lanTried options system count

/-- the aliases that an allocation adds and keeps -/
def keptAliases (count : Nat) : List AliasRecord :=
  keptOf options system (recordsTried options system count)

variable {options system}

theorem lanTried_nodup (count : Nat) : (lanTried options system count).Nodup := by
  unfold lanTried
  split
  · exact List.nodup_nil
  · split
    · exact List.nodup_nil
    · split
      · exact List.nodup_nil
      · split
        · exact List.nodup_nil
        · refine List.Nodup.map (fun a b heq => ?_)
            (((searchValues_nodup _ _).filter _).sublist (List.take_sublist _ _))
          exact hostToIpv4_injective (congrArg AliasRecord.address heq)

theorem recordsTried_nodup (count : Nat) : (recordsTried options system count).Nodup := by
  unfold recordsTried
  split
  · exact List.nodup_nil
  · split
    · exact loopbackRecords_nodup (Nat.min_le_right _ _)
    · exact lanTried_nodup count

theorem keptAliases_nodup (count : Nat) : (keptAliases options system count).Nodup :=
  ((recordsTried_nodup count).sublist (List.takeWhile_sublist _)).filter _

namespace IpAliasManager

/-- what the loop over the first loopback addresses leaves, on a machine without aliases of this host -/
theorem loopbackFrom_range {n : Nat} (hn : n ≤ 256) :
    (loopbackFrom options system {} [] (List.range n)).1 =
        addAll {} (keptOf options system ((List.range n).map (loopbackRecord system))) ∧
      ((∃ error, (loopbackFrom options system {} [] (List.range n)).2 = .error error) ↔
        ∃ i ∈ List.range n, system.usable options (loopbackRecord system i) = false) :=
  loopbackFrom_manager (loopbackRecords_nodup hn) fun _ _ => List.not_mem_nil

/-- no more than 256 addresses are tried -/
theorem allocateLoopback_eq (count : Nat) :
    allocateLoopback options system {} count = loopbackFrom options system {} [] (List.range (min count 256)) := by
  unfold allocateLoopback
  by_cases hcount : count ≤ 256
  · rw [Nat.min_eq_left hcount]
  · obtain ⟨error, herror⟩ := (loopbackFrom_range (Nat.le_refl 256)).2.mpr
      ⟨255, List.mem_range.mpr (by omega), loopbackRecord_unusable⟩
    have hsplit : List.range count = List.range 256 ++ List.range' (0 + 256) (count - 256) := by
      rw [List.range_eq_range', List.range_eq_range', List.range'_append_1,
        Nat.add_sub_cancel' (by omega)]
    rw [Nat.min_eq_right (by omega), hsplit, loopbackFrom_append herror]

/-- an allocation of the local network that ends before it searches -/
theorem allocateLan_none {count : Nat} (hnone : (candidateInterfaces options system.toInterfaces).head? = none) :
    (allocateLan options system {} count).1 = {} := by
  rw [List.head?_eq_none_iff] at hnone
  unfold allocateLan
  simp only
  rw [hnone]
  simp only
  split
  · split <;> rfl
  · split <;> rfl

theorem allocateLan_manager {count : Nat} (hcount : count ≠ 0) :
    (allocateLan options system {} count).1 = addAll {} (keptOf options system (lanTried options system count)) ∧
      ((∃ error, (allocateLan options system {} count).2 = .error error) →
        lanTried options system count = [] ∨
        (∃ r ∈ lanTried options system count, system.usable options r = false) ∨
        (lanTried options system count).length < count) := by
  cases hiface : (candidateInterfaces options system.toInterfaces).head? with
  | none =>
    have htried : lanTried options system count = [] := by
      unfold lanTried
      rw [hiface]
    rw [allocateLan_none hiface, htried]
    exact ⟨(addAll_nil {}).symm, fun _ => .inl rfl⟩
  | some iface =>
    obtain ⟨rest, hcandidates⟩ := List.head?_eq_some_iff.mp hiface
    have hsome : interfaceAddresses system.addrs ≠ [] := by
      intro hnil
      have hlisted := candidate_listed hiface
      unfold listed at hlisted
      rw [hnil] at hlisted
      cases hlisted
    unfold allocateLan lanTried
    simp only
    rw [if_neg hsome, hiface, hcandidates]
    simp only
    by_cases hone : count = 1 ∧ options.baseAddress = ""
    · rw [if_pos hone, if_pos hone]
      exact ⟨(addAll_nil {}).symm, fun _ => .inl rfl⟩
    · rw [if_neg hone, if_neg hone]
      cases hrange : searchRange options iface with
      | error error => exact ⟨(addAll_nil {}).symm, fun _ => .inl rfl⟩
      | ok range =>
        obtain ⟨network, broadcast⟩ := range
        simp only
        by_cases hroom : broadcast ≤ network + 1
        · rw [if_pos hroom, if_pos hroom]
          exact ⟨(addAll_nil {}).symm, fun _ => .inl rfl⟩
        · rw [if_neg hroom, if_neg hroom]
          have hsearch := @searchFrom_manager options system iface count _
            (searchValues_nodup network (broadcast - 1)) {} _ [] (candidate_listed hiface)
            (Nat.pos_of_ne_zero hcount) fun _ _ => List.not_mem_nil
          rw [List.length_nil, Nat.sub_zero] at hsearch
          refine hsearch.imp_right fun herror h => ?_
          rcases herror.mp h with ⟨c, hc, hfailed⟩ | hfew
          · exact .inr (.inl ⟨_, List.mem_map_of_mem hc, hfailed⟩)
          · refine .inr (.inr ?_)
            rw [List.length_map, List.length_take]
            omega

/-- **What an allocation leaves**: the aliases that it added and could bind.  It fails only where
nothing is tried, or an address cannot be used, or there are not enough. -/
theorem allocate_manager {m : IpAliasManager} (hclean : m.cleanup = {}) (count : Nat) :
    (m.allocate options system count).1 = addAll {} (keptAliases options system count) ∧
      ((∃ error, (m.allocate options system count).2 = .error error) →
        recordsTried options system count = [] ∨
        (∃ r ∈ recordsTried options system count, system.usable options r = false) ∨
        (recordsTried options system count).length < count) := by
  have hnone : ∀ r : IpAliasManager × Except String (List String), r.1 = {} →
      recordsTried options system count = [] →
      r.1 = addAll {} (keptAliases options system count) ∧
        ((∃ error, r.2 = .error error) → recordsTried options system count = [] ∨
          (∃ r ∈ recordsTried options system count, system.usable options r = false) ∨
          (recordsTried options system count).length < count) := by
    intro r hr htried
    refine ⟨?_, fun _ => .inl htried⟩
    rw [hr, keptAliases, htried]
    exact (addAll_nil {}).symm
  unfold allocate
  simp only
  rw [hclean]
  by_cases hexplicit : options.explicitAddresses ≠ []
  · have htried : recordsTried options system count = [] := by rw [recordsTried, if_pos (.inl hexplicit)]
    rw [if_pos hexplicit]
    split
    · exact hnone _ rfl htried
    · exact hnone _ rfl htried
  · rw [if_neg hexplicit]
    by_cases hmode : options.ipMode = "explicit"
    · rw [if_pos hmode]
      exact hnone _ rfl (by rw [recordsTried, if_pos (.inr (.inl hmode))])
    · rw [if_neg hmode]
      by_cases hzero : count = 0
      · rw [if_pos hzero]
        exact hnone _ rfl (by rw [recordsTried, if_pos (.inr (.inr hzero))])
      · have hsearch : ¬(options.explicitAddresses ≠ [] ∨ options.ipMode = "explicit" ∨ count = 0) := by
          rw [not_or, not_or]
          exact ⟨hexplicit, hmode, hzero⟩
        rw [if_neg hzero]
        by_cases hloopback : options.ipMode = "loopback"
        · have htried : recordsTried options system count =
              (List.range (min count 256)).map (loopbackRecord system) := by
            rw [recordsTried, if_neg hsearch, if_pos hloopback]
          rw [if_pos hloopback, allocateLoopback_eq, keptAliases, htried]
          refine (loopbackFrom_range (Nat.min_le_right count 256)).imp_right fun herror h => .inr (.inl ?_)
          obtain ⟨i, hi, hfailed⟩ := herror.mp h
          exact ⟨_, List.mem_map_of_mem hi, hfailed⟩
        · have htried : recordsTried options system count = lanTried options system count := by
            rw [recordsTried, if_neg hsearch, if_neg hloopback]
          rw [if_neg hloopback, keptAliases, htried]
          exact allocateLan_manager hzero

/-- removing what is recorded removes all that is installed -/
theorem cleanup_eq {m : IpAliasManager} (hsame : m.installed = m.addedAliases)
    (hnodup : m.addedAliases.Nodup) :
    m.cleanup = {} := by
  have hremove : ∀ (records : List AliasRecord) (m : IpAliasManager),
      (records.foldl removeAlias m).installed = m.installed.diff records := by
    intro records
    induction records with
    | nil => exact fun m => (List.diff_nil _).symm
    | cons record records ih =>
      intro m
      rw [List.foldl_cons, ih, List.diff_cons]
      rfl
  have hnone : m.addedAliases.diff m.addedAliases.reverse = [] := by
    refine List.eq_nil_iff_forall_not_mem.mpr fun r hr => ?_
    obtain ⟨hmem, hnot⟩ := hnodup.mem_sdiff_iff.mp hr
    exact hnot (List.mem_reverse.mpr hmem)
  unfold cleanup
  simp only
  rw [hremove, hsame, hnone]

end IpAliasManager
end

/-! ## what the host leaves -/

/-- An allocation leaves no alias behind: each address that it tries can be used and there are enough,
or none has to be added before the first that cannot be used. -/
def Spared (options : HostOptions) (system : System) (count : Nat) : Prop :=
  ((∀ r ∈ recordsTried options system count, system.usable options r = true) ∧
      count ≤ (recordsTried options system count).length) ∨
    ∀ r ∈ (recordsTried options system count).takeWhile (system.usable options),
      system.added options r = false

instance (options : HostOptions) (system : System) (count : Nat) :
    Decidable (Spared options system count) :=
  inferInstanceAs (Decidable (_ ∨ _))

/-- what is asked of a call: an allocation that it makes leaves no alias behind -/
def HostCall.Spares (h : EtherDreamHost) : HostCall → Prop
  | .start targets startup => h.active = true ∨ Spared h.options startup.system (targets.filterMap id).length
  | .stop => True

instance (h : EtherDreamHost) : DecidablePred (HostCall.Spares h) := fun call =>
  match call with
  | .start targets startup =>
    inferInstanceAs (Decidable (h.active = true ∨ Spared h.options startup.system (targets.filterMap id).length))
  | .stop => .isTrue trivial

theorem Spared.kept {options : HostOptions} {system : System} {count : Nat}
    (h : Spared options system count)
    (herror : recordsTried options system count = [] ∨
      (∃ r ∈ recordsTried options system count, system.usable options r = false) ∨
      (recordsTried options system count).length < count) : keptAliases options system count = [] := by
  rcases h with ⟨husable, henough⟩ | hnone
  · rcases herror with htried | ⟨r, hr, hfailed⟩ | hfew
    · rw [keptAliases, htried]
      rfl
    · rw [husable r hr] at hfailed
      cases hfailed
    · omega
  · unfold keptAliases keptOf
    refine List.filter_eq_nil_iff.mpr fun r hr => ?_
    rw [hnone r hr]
    exact Bool.false_ne_true

/-- The installed aliases are the recorded ones, each recorded once. -/
structure IpAliasManager.Recorded (m : IpAliasManager) : Prop where
  same : m.installed = m.addedAliases
  nodup : m.addedAliases.Nodup

theorem recorded_empty : IpAliasManager.Recorded {} := ⟨rfl, List.nodup_nil⟩

theorem recorded_kept (options : HostOptions) (system : System) (count : Nat) :
    IpAliasManager.Recorded (IpAliasManager.addAll {} (keptAliases options system count)) :=
  ⟨rfl, keptAliases_nodup count⟩

/-- what a start leaves -/
theorem start_recorded {h : EtherDreamHost} (hrec : h.aliasManager.Recorded)
    (targets : List (Option TargetInfo)) (startup : Startup) :
    (h.start targets startup).1.aliasManager.Recorded := by
  have hclean := IpAliasManager.cleanup_eq hrec.same hrec.nodup
  have hkept : (h.aliasManager.allocate h.options startup.system (targets.filterMap id).length).1.Recorded := by
    rw [(IpAliasManager.allocate_manager hclean _).1]
    exact recorded_kept _ _ _
  unfold EtherDreamHost.start
  simp only
  split
  · exact hrec
  · split
    · exact hrec
    · split
      · rename_i m error hallocate
        rw [hallocate] at hkept
        exact hkept
      · rename_i m addresses hallocate
        rw [hallocate] at hkept
        split
        · rw [IpAliasManager.cleanup_eq hkept.same hkept.nodup]
          exact recorded_empty
        · exact hkept

/-- a start of an idle host that fails leaves nothing, if its allocation leaves no alias behind -/
theorem start_failed {h : EtherDreamHost} (hrec : h.aliasManager.Recorded)
    {targets : List (Option TargetInfo)}
    {startup : Startup} (hidle : h.active = false) (hnone : h.aliasManager.installed = [])
    (hspared : Spared h.options startup.system (targets.filterMap id).length)
    (hfailed : (h.start targets startup).1.active = false) :
    (h.start targets startup).1.aliasManager.installed = [] := by
  have hclean := IpAliasManager.cleanup_eq hrec.same hrec.nodup
  obtain ⟨hmanager, herror⟩ :=
    @IpAliasManager.allocate_manager h.options startup.system _ hclean (targets.filterMap id).length
  have hkept := recorded_kept h.options startup.system (targets.filterMap id).length
  unfold EtherDreamHost.start at hfailed ⊢
  simp only at hfailed ⊢
  rw [if_neg (Bool.not_eq_true _ ▸ hidle)] at hfailed ⊢
  split
  · exact hnone
  · rename_i hsome
    rw [if_neg hsome] at hfailed
    split
    · rename_i m error hallocate
      rw [hallocate] at hmanager herror
      obtain rfl : m = _ := hmanager
      rw [hspared.kept (herror ⟨error, rfl⟩)]
      rfl
    · rename_i m addresses hallocate
      rw [hallocate] at hmanager hfailed
      obtain rfl : m = _ := hmanager
      simp only at hfailed
      split
      · rw [IpAliasManager.cleanup_eq hkept.same hkept.nodup]
      · rename_i devices hdevices
        rw [hdevices] at hfailed
        cases hfailed

/-- a start that fails leaves an idle host idle -/
theorem start_error_idle {h : EtherDreamHost} (hidle : h.active = false)
    {targets : List (Option TargetInfo)}
    {startup : Startup} {error : String} (herror : (h.start targets startup).2 = .error error) :
    (h.start targets startup).1.active = false := by
  unfold EtherDreamHost.start at herror ⊢
  simp only at herror ⊢
  rw [if_neg (Bool.not_eq_true _ ▸ hidle)] at herror ⊢
  split
  · exact hidle
  · rename_i hsome
    rw [if_neg hsome] at herror
    split
    · exact hidle
    · rename_i m addresses hallocate
      rw [hallocate] at herror
      simp only at herror
      split
      · exact hidle
      · rename_i devices hdevices
        rw [hdevices] at herror
        cases herror

/-- The recorded aliases are installed, and an idle host has none. -/
structure EtherDreamHost.Inv (h : EtherDreamHost) : Prop where
  recorded : h.aliasManager.Recorded
  idle : h.active = false → h.aliasManager.installed = []

theorem EtherDreamHost.Inv.run {h : EtherDreamHost} (hinv : h.Inv) {call : HostCall}
    (hspares : HostCall.Spares h call) : (call.run h).Inv := by
  cases call with
  | start targets startup =>
    refine ⟨start_recorded hinv.recorded targets startup, fun hafter => ?_⟩
    cases hactive : h.active with
    | true =>
      have hsame : h.start targets startup =
          (h, .error "Ether Dream virtual controller host is already running.") := by
        unfold EtherDreamHost.start
        rw [if_pos hactive]
      change (h.start targets startup).1.active = false at hafter
      rw [hsame, hactive] at hafter
      cases hafter
    | false =>
      rcases hspares with hrunning | hspared
      · rw [hactive] at hrunning
        cases hrunning
      · exact start_failed hinv.recorded hactive (hinv.idle hactive) hspared hafter
  | stop =>
    have hclean := IpAliasManager.cleanup_eq hinv.recorded.same hinv.recorded.nodup
    refine ⟨?_, fun _ => ?_⟩
    · change h.aliasManager.cleanup.Recorded
      rw [hclean]
      exact recorded_empty
    · change h.aliasManager.cleanup.installed = []
      rw [hclean]

/-- No alias is left behind: by a stop, and by a start that fails on an idle host. -/
def HostCall.LeavesNone (h : EtherDreamHost) : HostCall → Prop
  | .start targets startup => h.active = false → (∃ error, (h.start targets startup).2 = .error error) →
      (h.start targets startup).1.aliasManager.installed = []
  | .stop => h.stop.aliasManager.installed = []

/-- **What the host leaves on the machine**, in any history in which no allocation fails after it has
added an alias that it keeps: after each call the installed aliases are the recorded ones, each recorded
once, and none is left behind. -/
theorem aliases_left (ports : DefaultPorts) (config : VirtualControllerHostConfig) (calls : List HostCall)
    (hspares : Allowed HostCall.run HostCall.Spares (.new ports config) calls) :
    ∀ before call after, calls = before ++ call :: after →
      let h := before.foldl HostCall.run (.new ports config)
      let m := (call.run h).aliasManager
      m.installed.Perm m.addedAliases ∧ m.addedAliases.Nodup ∧ call.LeavesNone h := by
  rintro before call after rfl
  obtain ⟨hbefore, hcall, -⟩ := allowed_append.mp hspares
  have hnew : (EtherDreamHost.new ports config).Inv := ⟨recorded_empty, fun _ => rfl⟩
  have hinv : (before.foldl HostCall.run (.new ports config)).Inv :=
    hbefore.history (P := fun _ => EtherDreamHost.Inv) hnew fun _ _ _ hinv hspares => hinv.run hspares
  have hafter := hinv.run hcall
  refine ⟨?_, hafter.recorded.nodup, ?_⟩
  · rw [hafter.recorded.same]
  · cases call with
    | start targets startup =>
      rintro hidle ⟨error, herror⟩
      exact hafter.idle (start_error_idle hidle herror)
    | stop => exact hafter.idle rfl

/-- a machine with one loopback address, on which one more can be added -/
def oneMore : System where
  addrs := []
  defaultInterfaceName := none
  loopbackName := "lo0"
  canBind := fun address => address = "127.0.0.1"
  addAlias := fun record => record.address = "127.0.0.2"
  canBindAlias := fun _ => true

def loopbackConfig : VirtualControllerHostConfig := ⟨0, Finmap.singleton "ip_mode" "loopback"⟩

/-- a target with a sink -/
def helios : Option TargetInfo := some ⟨"a", "A", "Helios", 40000⟩

/-- two starts, of which the first fails behind its allocation, and a stop -/
def twoStarts : List HostCall :=
  [.start [helios, none, helios] ⟨oneMore, fun i => if i = 1 then some "TCP bind failed" else none⟩,
    .start [helios, helios] ⟨oneMore, fun _ => none⟩, .stop]

theorem aliases_left_two :
    let h := (twoStarts.take 2).foldl HostCall.run (.new ⟨7765, 7654⟩ loopbackConfig)
    let m := (HostCall.stop.run h).aliasManager
    h.aliasManager.installed ≠ [] ∧
      m.installed.Perm m.addedAliases ∧ m.addedAliases.Nodup ∧ HostCall.stop.LeavesNone h :=
  ⟨by decide +kernel, aliases_left ⟨7765, 7654⟩ loopbackConfig twoStarts (by decide +kernel)
    (twoStarts.take 2) .stop [] rfl⟩

/-- A third address cannot be added: the start fails, and the alias of the second stays. -/
theorem alias_left_behind :
    let r := EtherDreamHost.start (.new ⟨7765, 7654⟩ loopbackConfig) [helios, helios, helios]
      ⟨oneMore, fun _ => none⟩
    r.2 = .error ("Failed to add Ether Dream IP alias 127.0.0.3 on lo0. " ++
        "Run with privileges or set addresses=... to preconfigured IPs.") ∧
      r.1.active = false ∧ r.1.aliasManager.installed = [⟨"lo0", "127.0.0.2", "255.0.0.0", true⟩] := by
  decide +kernel

end LiberaLink.EtherDream
