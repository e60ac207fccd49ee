import Mathlib.Data.Finset.Card
import Mathlib.Order.Interval.Finset.Nat
import LiberaLink.EtherDream.Aliases

/-!
# The addresses of the local network

The search takes addresses of a subnet from the top down, and leaves out those of the interfaces that are up.
The top is the broadcast address that the interface reports; one that is point to point reports its peer there.

* `searchValues_toNat`   **the search goes down one by one** and ends above the network address;
* `searchFrom_ok`        what a search that succeeds returns;
* `LanSpec`              what the search is for;
* `lan_spec_iff`         **when it does that**.
-/

namespace LiberaLink.EtherDream

/-! ## the values of the search -/

theorem toNat_pred {network candidate : UInt32} (h : network < candidate) :
    (candidate - 1).toNat + 1 = candidate.toNat := by
  have hlt := UInt32.lt_iff_toNat_lt.mp h
  have hone : (1 : UInt32) ≤ candidate := UInt32.le_iff_toNat_le.mpr (show 1 ≤ candidate.toNat by omega)
  have h1 : (1 : UInt32).toNat = 1 := rfl
  rw [UInt32.toNat_sub_of_le _ _ hone]
  omega

/-- **The search goes down one by one** and takes each number above the network address once. -/
theorem searchValues_toNat (network candidate : UInt32) :
    (searchValues network candidate).map UInt32.toNat =
      (List.range' (network.toNat + 1) (candidate.toNat - network.toNat)).reverse := by
  induction candidate using searchValues.induct network with
  | case1 candidate h ih =>
    have hpred := toNat_pred h
    have hlt := UInt32.lt_iff_toNat_lt.mp h
    have hcount : candidate.toNat - network.toNat = (candidate - 1).toNat - network.toNat + 1 := by omega
    have htop : network.toNat + 1 + ((candidate - 1).toNat - network.toNat) = candidate.toNat := by omega
    rw [searchValues, dif_pos h, List.map_cons, ih, hcount, List.range'_1_concat,
      List.reverse_append, htop]
    rfl
  | case2 candidate h =>
    have hle : candidate.toNat ≤ network.toNat := UInt32.le_iff_toNat_le.mp (UInt32.not_lt.mp h)
    rw [searchValues, dif_neg h, Nat.sub_eq_zero_of_le hle]
    rfl

theorem mem_searchValues {network candidate c : UInt32} :
    c ∈ searchValues network candidate ↔ network < c ∧ c ≤ candidate := by
  have hmem : c ∈ searchValues network candidate ↔
      c.toNat ∈ (searchValues network candidate).map UInt32.toNat := by
    rw [List.mem_map]
    constructor
    · intro h
      exact ⟨c, h, rfl⟩
    · rintro ⟨d, hd, heq⟩
      rwa [← UInt32.toNat_inj.mp heq]
  rw [hmem, searchValues_toNat, List.mem_reverse, List.mem_range'_1, UInt32.lt_iff_toNat_lt,
    UInt32.le_iff_toNat_le]
  omega

theorem searchValues_pairwise (network candidate : UInt32) :
    (searchValues network candidate).Pairwise fun a b => b < a := by
  have h : ((searchValues network candidate).map UInt32.toNat).Pairwise fun a b => b < a := by
    rw [searchValues_toNat, List.pairwise_reverse]
    exact List.pairwise_lt_range'
  rw [List.pairwise_map] at h
  exact h.imp fun hlt => UInt32.lt_iff_toNat_lt.mpr hlt

theorem searchValues_nodup (network candidate : UInt32) : (searchValues network candidate).Nodup :=
  (searchValues_pairwise network candidate).imp fun hlt heq => by
    rw [heq] at hlt
    exact UInt32.lt_irrefl _ hlt

/-! ## a search that succeeds -/

/-- the values that are not among the existing addresses -/
def unlisted (existing values : List UInt32) : List UInt32 := values.filter fun c => c ∉ existing

theorem unlisted_cons_of_mem {existing values : List UInt32} {candidate : UInt32}
    (h : candidate ∈ existing) :
    unlisted existing (candidate :: values) = unlisted existing values := by
  unfold unlisted
  rw [List.filter_cons_of_neg]
  simpa using h

theorem unlisted_cons_of_not_mem {existing values : List UInt32} {candidate : UInt32}
    (h : candidate ∉ existing) :
    unlisted existing (candidate :: values) = candidate :: unlisted existing values := by
  unfold unlisted
  rw [List.filter_cons_of_pos]
  exact decide_eq_true h

/-- an address that was taken does not come again -/
theorem unlisted_cons {existing values : List UInt32} {candidate : UInt32} (h : candidate ∉ values) :
    unlisted (candidate :: existing) values = unlisted existing values := by
  unfold unlisted
  refine List.filter_congr fun c hc => ?_
  have hne : c ≠ candidate := fun heq => h (heq ▸ hc)
  rw [decide_eq_decide, List.mem_cons, not_or]
  exact and_iff_right hne

/-- the alias with the number `candidate` -/
def lanRecord (iface : InterfaceAddress) (candidate : UInt32) : AliasRecord :=
  ⟨iface.name, hostToIpv4 candidate, iface.netmask, false⟩

section
variable {options : HostOptions} {system : System} {iface : InterfaceAddress} {count : Nat}

/-- one value of the loop -/
theorem searchFrom_listed {m : IpAliasManager} {existing values : List UInt32} {allocated : List String}
    {candidate : UInt32} (h : candidate ∈ existing) :
    m.searchFrom options system iface count existing allocated (candidate :: values) =
      m.searchFrom options system iface count existing allocated values := by
  rw [IpAliasManager.searchFrom, if_pos (.inl h)]

theorem searchFrom_unlisted {m : IpAliasManager} {existing values : List UInt32} {allocated : List String}
    {candidate : UInt32} (hiface : iface.addressHost ∈ existing) (h : candidate ∉ existing) :
    m.searchFrom options system iface count existing allocated (candidate :: values) =
      match m.ensureAlias options system (lanRecord iface candidate) with
      | (m, .error error) => (m, .error error)
      | (m, .ok _) =>
        if (allocated ++ [hostToIpv4 candidate]).length = count then
          (m, .ok (allocated ++ [hostToIpv4 candidate]))
        else m.searchFrom options system iface count (candidate :: existing)
          (allocated ++ [hostToIpv4 candidate]) values := by
  have hnew : ¬(candidate ∈ existing ∨ candidate = iface.addressHost) := by
    rintro (hmem | rfl)
    · exact h hmem
    · exact h hiface
  rw [IpAliasManager.searchFrom, if_neg hnew]
  obtain ⟨m', result, htried⟩ : ∃ m' result,
      m.ensureAlias options system (lanRecord iface candidate) = (m', result) := ⟨_, _, Prod.mk.eta.symm⟩
  have htried' : m.ensureAlias options system
      ⟨iface.name, hostToIpv4 candidate, iface.netmask, false⟩ = (m', result) := htried
  cases result with
  | error error => simp only [htried, htried']
  | ok value => simp only [htried, htried']

/-- **What a search that succeeds returns**: the first values that no interface has, as many as are asked
for. -/
theorem searchFrom_ok {values : List UInt32} (hnodup : values.Nodup) {m : IpAliasManager}
    {existing : List UInt32} {allocated addresses : List String} (hiface : iface.addressHost ∈ existing)
    (hcount : allocated.length < count)
    (h : (m.searchFrom options system iface count existing allocated values).2 = .ok addresses) :
    count ≤ allocated.length + (unlisted existing values).length ∧
      addresses = allocated ++
        ((unlisted existing values).take (count - allocated.length)).map hostToIpv4 := by
  induction values generalizing m existing allocated with
  | nil => cases h
  | cons candidate values ih =>
    obtain ⟨hfirst, hrest⟩ := List.nodup_cons.mp hnodup
    by_cases hlisted : candidate ∈ existing
    · rw [searchFrom_listed hlisted] at h
      rw [unlisted_cons_of_mem hlisted]
      exact ih hrest hiface hcount h
    · rw [searchFrom_unlisted hiface hlisted] at h
      rw [unlisted_cons_of_not_mem hlisted, List.length_cons]
      split at h
      · cases h
      · split at h
        · rename_i hlast
          rw [List.length_append, List.length_singleton] at hlast
          obtain rfl := Except.ok.inj h
          refine ⟨by omega, ?_⟩
          rw [show count - allocated.length = 0 + 1 by omega, List.take_succ_cons, List.take_zero]
          rfl
        · rename_i hmore
          rw [List.length_append, List.length_singleton] at hmore
          have hcount' : (allocated ++ [hostToIpv4 candidate]).length < count := by
            rw [List.length_append, List.length_singleton]
            omega
          obtain ⟨henough, haddresses⟩ := ih hrest (List.mem_cons_of_mem _ hiface) hcount' h
          rw [unlisted_cons hfirst, List.length_append, List.length_singleton] at henough haddresses
          refine ⟨by omega, ?_⟩
          rw [haddresses, show count - allocated.length = count - (allocated.length + 1) + 1 by omega,
            List.take_succ_cons, List.map_cons, List.append_assoc]
          rfl

/-- a search succeeds if each address can be bound and there are enough -/
theorem searchFrom_bound {values : List UInt32} (hnodup : values.Nodup)
    (hbound : ∀ c ∈ values, system.bound (lanRecord iface c) = true) {m : IpAliasManager}
    {existing : List UInt32} {allocated : List String} (hiface : iface.addressHost ∈ existing)
    (hcount : allocated.length < count)
    (henough : count ≤ allocated.length + (unlisted existing values).length) :
    ∃ addresses, (m.searchFrom options system iface count existing allocated values).2 = .ok addresses := by
  induction values generalizing m existing allocated with
  | nil =>
    change count ≤ allocated.length + 0 at henough
    omega
  | cons candidate values ih =>
    obtain ⟨hfirst, hrest⟩ := List.nodup_cons.mp hnodup
    have hbound' : ∀ c ∈ values, system.bound (lanRecord iface c) = true :=
      fun c hc => hbound c (List.mem_cons_of_mem _ hc)
    by_cases hlisted : candidate ∈ existing
    · rw [searchFrom_listed hlisted]
      rw [unlisted_cons_of_mem hlisted] at henough
      exact ih hrest hbound' hiface hcount henough
    · have hensure : m.ensureAlias options system (lanRecord iface candidate) = (m, .ok ()) :=
        if_pos (hbound candidate List.mem_cons_self)
      rw [searchFrom_unlisted hiface hlisted, hensure]
      rw [unlisted_cons_of_not_mem hlisted, List.length_cons] at henough
      simp only
      split
      · exact ⟨_, rfl⟩
      · rename_i hmore
        rw [List.length_append, List.length_singleton] at hmore
        refine ih hrest hbound' (List.mem_cons_of_mem _ hiface) ?_ ?_
        · rw [List.length_append, List.length_singleton]
          omega
        · rw [unlisted_cons hfirst, List.length_append, List.length_singleton]
          omega

end

/-! ## free addresses -/

/-- the addresses of the interfaces that are up -/
def listed (interfaces : Interfaces) : List UInt32 :=
  (interfaceAddresses interfaces.addrs).map fun iface => iface.addressHost

/-- the numbers strictly between two addresses that no interface has -/
def freeBetween (existing : List UInt32) (network last : UInt32) : Finset Nat :=
  (Finset.Ioo network.toNat last.toNat).filter fun n => n ∉ existing.map UInt32.toNat

theorem mem_freeBetween {existing : List UInt32} {network last c : UInt32} :
    c.toNat ∈ freeBetween existing network last ↔ network < c ∧ c < last ∧ c ∉ existing := by
  have hlisted : c.toNat ∈ existing.map UInt32.toNat ↔ c ∈ existing := by
    rw [List.mem_map]
    constructor
    · rintro ⟨d, hd, heq⟩
      rwa [← UInt32.toNat_inj.mp heq]
    · intro h
      exact ⟨c, h, rfl⟩
  unfold freeBetween
  rw [Finset.mem_filter, Finset.mem_Ioo, hlisted, UInt32.lt_iff_toNat_lt, UInt32.lt_iff_toNat_lt,
    and_assoc]

section
variable {network broadcast : UInt32} (hpos : 0 < broadcast) (existing : List UInt32)
include hpos

theorem mem_unlisted {c : UInt32} :
    c ∈ unlisted existing (searchValues network (broadcast - 1)) ↔
      network < c ∧ c < broadcast ∧ c ∉ existing := by
  have hlast : c ≤ broadcast - 1 ↔ c < broadcast := by
    have hpred := toNat_pred hpos
    rw [UInt32.le_iff_toNat_le, UInt32.lt_iff_toNat_lt]
    omega
  unfold unlisted
  rw [List.mem_filter, mem_searchValues, hlast, decide_eq_true_eq, and_assoc]

/-- the search meets each free address once -/
theorem length_unlisted :
    (unlisted existing (searchValues network (broadcast - 1))).length =
      (freeBetween existing network broadcast).card := by
  have hnodup : ((unlisted existing (searchValues network (broadcast - 1))).map UInt32.toNat).Nodup :=
    ((searchValues_nodup _ _).filter _).map fun a b h => UInt32.toNat_inj.mp h
  have hset : ((unlisted existing (searchValues network (broadcast - 1))).map UInt32.toNat).toFinset =
      freeBetween existing network broadcast := by
    ext n
    rw [List.mem_toFinset, List.mem_map]
    constructor
    · rintro ⟨c, hc, rfl⟩
      exact mem_freeBetween.mpr ((mem_unlisted hpos existing).mp hc)
    · intro hn
      have hlt : n < 2 ^ 32 := by
        have h := (Finset.mem_Ioo.mp (Finset.mem_filter.mp hn).1).2
        have := broadcast.toNat_lt
        omega
      refine ⟨.ofNat n, (mem_unlisted hpos existing).mpr (mem_freeBetween.mp ?_),
        UInt32.toNat_ofNat_of_lt' hlt⟩
      rwa [UInt32.toNat_ofNat_of_lt' hlt]
  rw [← hset, List.toFinset_card_of_nodup hnodup, List.length_map]

end

/-- different free addresses are not more than there are -/
theorem length_le_card {existing cs : List UInt32} {network last : UInt32} (hnodup : cs.Nodup)
    (h : ∀ c ∈ cs, c ∉ existing ∧ network < c ∧ c < last) :
    cs.length ≤ (freeBetween existing network last).card := by
  have hmap : (cs.map UInt32.toNat).Nodup := hnodup.map fun a b h => UInt32.toNat_inj.mp h
  rw [← List.length_map, ← List.toFinset_card_of_nodup hmap]
  refine Finset.card_le_card fun n hn => ?_
  obtain ⟨c, hc, rfl⟩ := List.mem_map.mp (List.mem_toFinset.mp hn)
  obtain ⟨hnew, hlow, hhigh⟩ := h c hc
  exact mem_freeBetween.mpr ⟨hlow, hhigh, hnew⟩

/-! ## what an allocation returns -/

/-- the network and the broadcast address of the subnet of an address -/
def subnetOf (address netmask : UInt32) : UInt32 × UInt32 :=
  (address &&& netmask, (address &&& netmask) ||| ~~~netmask)

section
variable (options : HostOptions)

/-- the subnet that addresses are taken from: that of the interface, or that of `base_address` -/
def usedSubnet (iface : InterfaceAddress) : Option (UInt32 × UInt32) :=
  if options.baseAddress = "" then some (subnetOf iface.addressHost iface.netmaskHost)
  else (ipv4ToHost options.baseAddress).map fun base => subnetOf base iface.netmaskHost

/-- What an allocation for `count` devices is to do: it returns as many different addresses, inside the
subnet and none of them an address of an interface, it fails if there are not enough, and its search
goes down one by one. -/
structure LanSpec (interfaces : Interfaces) (count : Nat) (r : Except String (List String)) : Prop where
  inside : ∀ addresses, r = .ok addresses →
    ∃ iface network last, ∃ cs : List UInt32,
      (candidateInterfaces options interfaces).head? = some iface ∧
      usedSubnet options iface = some (network, last) ∧
      addresses = cs.map hostToIpv4 ∧ addresses.Nodup ∧ cs.length = count ∧
      ∀ c ∈ cs, c ∉ listed interfaces ∧ network < c ∧ c < last
  enough : ∀ iface network last, (candidateInterfaces options interfaces).head? = some iface →
    usedSubnet options iface = some (network, last) →
    (freeBetween (listed interfaces) network last).card < count → ∃ error, r = .error error
  search : ∀ iface network broadcast, (candidateInterfaces options interfaces).head? = some iface →
    searchRange options iface = .ok (network, broadcast) → ¬broadcast ≤ network + 1 →
    (searchValues network (broadcast - 1)).map UInt32.toNat =
      (List.range' (network.toNat + 1) (broadcast.toNat - 1 - network.toNat)).reverse

/-- No address outside of the subnet is taken: there is a base address, or the reported broadcast
address is that of the subnet or below it, or no address from there up to it is free, or there are not
enough free ones below it. -/
def StaysInside (interfaces : Interfaces) (count : Nat) : Prop :=
  ∀ iface, (candidateInterfaces options interfaces).head? = some iface → options.baseAddress = "" →
    iface.broadcastHost ≤ (subnetOf iface.addressHost iface.netmaskHost).2 ∨
    (∀ c, (subnetOf iface.addressHost iface.netmaskHost).1 < c →
      (subnetOf iface.addressHost iface.netmaskHost).2 ≤ c → c < iface.broadcastHost →
      c ∈ listed interfaces) ∨
    (freeBetween (listed interfaces) (subnetOf iface.addressHost iface.netmaskHost).1
      iface.broadcastHost).card < count

variable {options}

/-- the interface that aliases are added to is one of the listed -/
theorem candidate_listed {interfaces : Interfaces} {iface : InterfaceAddress}
    (h : (candidateInterfaces options interfaces).head? = some iface) :
    iface.addressHost ∈ listed interfaces := by
  have hmem : iface ∈ candidateInterfaces options interfaces := List.mem_of_mem_head? h
  refine List.mem_map.mpr ⟨iface, ?_, rfl⟩
  unfold candidateInterfaces at hmem
  simp only at hmem
  split at hmem
  · exact (List.mem_filter.mp hmem).1
  · rcases List.mem_append.mp hmem with hmem | hmem
    · exact (List.mem_filter.mp (List.mem_filter.mp hmem).1).1
    · exact (List.mem_filter.mp (List.mem_filter.mp hmem).1).1

section
variable {system : System} {count : Nat} (hcount : 2 ≤ count) {m : IpAliasManager}
include hcount

/-- an allocation that searches -/
theorem allocateLan_search {iface : InterfaceAddress} {network broadcast : UInt32}
    (hiface : (candidateInterfaces options system.toInterfaces).head? = some iface)
    (hrange : searchRange options iface = .ok (network, broadcast)) (hroom : ¬broadcast ≤ network + 1) :
    m.allocateLan options system count =
      m.searchFrom options system iface count (listed system.toInterfaces) []
        (searchValues network (broadcast - 1)) := by
  have hsome : interfaceAddresses system.addrs ≠ [] := by
    intro hnil
    have hlisted := candidate_listed hiface
    unfold listed at hlisted
    rw [hnil] at hlisted
    cases hlisted
  obtain ⟨rest, hcandidates⟩ := List.head?_eq_some_iff.mp hiface
  unfold IpAliasManager.allocateLan
  simp only
  rw [if_neg hsome, hcandidates]
  simp only
  rw [if_neg (by omega), hrange]
  simp only
  rw [if_neg hroom]
  rfl

/-- what leads to an allocation that succeeds -/
theorem allocateLan_ok {addresses : List String}
    (h : (m.allocateLan options system count).2 = .ok addresses) :
    ∃ iface network broadcast, (candidateInterfaces options system.toInterfaces).head? = some iface ∧
      searchRange options iface = .ok (network, broadcast) ∧ ¬broadcast ≤ network + 1 := by
  unfold IpAliasManager.allocateLan at h
  simp only at h
  split at h
  · rw [if_neg (by omega)] at h
    cases h
  · split at h
    · rw [if_neg (by omega)] at h
      cases h
    · rename_i iface rest hcandidates
      rw [if_neg (by omega)] at h
      split at h
      · cases h
      · rename_i network broadcast hrange
        split at h
        · cases h
        · rename_i hroom
          exact ⟨iface, network, broadcast, by rw [hcandidates]; rfl, hrange, hroom⟩

end
end

/-- what the search starts from lies above the network address -/
theorem pos_of_room {network broadcast : UInt32} (hroom : ¬broadcast ≤ network + 1) : 0 < broadcast := by
  have hlt := UInt32.lt_iff_toNat_lt.mp (UInt32.not_le.mp hroom)
  exact UInt32.lt_iff_toNat_lt.mpr (Nat.lt_of_le_of_lt (Nat.zero_le _) hlt)

theorem search_field {options : HostOptions} (interfaces : Interfaces) :
    ∀ iface network broadcast, (candidateInterfaces options interfaces).head? = some iface →
      searchRange options iface = .ok (network, broadcast) → ¬broadcast ≤ network + 1 →
      (searchValues network (broadcast - 1)).map UInt32.toNat =
        (List.range' (network.toNat + 1) (broadcast.toNat - 1 - network.toNat)).reverse := by
  intro iface network broadcast _ _ hroom
  have hpred := toNat_pred (pos_of_room hroom)
  rw [searchValues_toNat, show (broadcast - 1).toNat = broadcast.toNat - 1 by omega]

/-- the range of a search is that of the subnet, or reaches up to the reported broadcast address -/
theorem searchRange_cases {options : HostOptions} {iface : InterfaceAddress} {network broadcast : UInt32}
    (h : searchRange options iface = .ok (network, broadcast)) :
    usedSubnet options iface = some (network, broadcast) ∨
      options.baseAddress = "" ∧ network = (subnetOf iface.addressHost iface.netmaskHost).1 ∧
        broadcast = iface.broadcastHost := by
  unfold searchRange at h
  split at h
  · rename_i hbase
    simp only at h
    obtain ⟨rfl, hbroadcast⟩ := Prod.mk.inj (Except.ok.inj h)
    split at hbroadcast
    · exact .inr ⟨hbase, rfl, hbroadcast.symm⟩
    · refine .inl ?_
      rw [usedSubnet, if_pos hbase, ← hbroadcast]
      rfl
  · rename_i hbase
    split at h
    · cases h
    · rename_i base hread
      obtain ⟨rfl, rfl⟩ := Prod.mk.inj (Except.ok.inj h)
      refine .inl ?_
      rw [usedSubnet, if_neg hbase, hread]
      rfl

section
variable {options : HostOptions} {interfaces : Interfaces} {count : Nat}

/-- the first free addresses of a search lie inside the subnet -/
theorem take_inside (hinside : StaysInside options interfaces count) {iface : InterfaceAddress}
    {network broadcast : UInt32} (hiface : (candidateInterfaces options interfaces).head? = some iface)
    (hrange : searchRange options iface = .ok (network, broadcast)) (hroom : ¬broadcast ≤ network + 1)
    (henough : count ≤ (unlisted (listed interfaces) (searchValues network (broadcast - 1))).length) :
    ∃ last, usedSubnet options iface = some (network, last) ∧
      ∀ c ∈ unlisted (listed interfaces) (searchValues network (broadcast - 1)),
        c ∉ listed interfaces ∧ network < c ∧ c < last := by
  have hpos := pos_of_room hroom
  rcases searchRange_cases hrange with hsubnet | ⟨hbase, rfl, rfl⟩
  · refine ⟨broadcast, hsubnet, fun c hc => ?_⟩
    obtain ⟨hlow, hhigh, hnew⟩ := (mem_unlisted hpos _).mp hc
    exact ⟨hnew, hlow, hhigh⟩
  · refine ⟨(subnetOf iface.addressHost iface.netmaskHost).2,
      by rw [usedSubnet, if_pos hbase], fun c hc => ?_⟩
    obtain ⟨hlow, hhigh, hnew⟩ := (mem_unlisted hpos _).mp hc
    refine ⟨hnew, hlow, ?_⟩
    rcases hinside iface hiface hbase with hle | hall | hfew
    · exact UInt32.lt_of_lt_of_le hhigh hle
    · by_contra hlast
      exact hnew (hall c hlow (UInt32.not_lt.mp hlast) hhigh)
    · rw [length_unlisted hpos] at henough
      omega

/-- an allocation that stays inside is as it is to be -/
theorem lan_spec (hcount : 2 ≤ count) (hinside : StaysInside options interfaces count) (answers : Answers)
    (m : IpAliasManager) :
    LanSpec options interfaces count (m.allocateLan options ⟨interfaces, answers⟩ count).2 := by
  have hok : ∀ addresses, (m.allocateLan options ⟨interfaces, answers⟩ count).2 = .ok addresses →
      ∃ iface network last, ∃ cs : List UInt32,
        (candidateInterfaces options interfaces).head? = some iface ∧
        usedSubnet options iface = some (network, last) ∧
        addresses = cs.map hostToIpv4 ∧ cs.Nodup ∧ cs.length = count ∧
        ∀ c ∈ cs, c ∉ listed interfaces ∧ network < c ∧ c < last := by
    intro addresses h
    obtain ⟨iface, network, broadcast, hiface, hrange, hroom⟩ := allocateLan_ok hcount h
    rw [allocateLan_search hcount hiface hrange hroom] at h
    obtain ⟨henough, haddresses⟩ := searchFrom_ok (searchValues_nodup _ _) (candidate_listed hiface)
      (by rw [List.length_nil]; omega) h
    rw [List.length_nil, Nat.zero_add] at henough
    rw [List.nil_append, List.length_nil, Nat.sub_zero] at haddresses
    obtain ⟨last, hsubnet, hfree⟩ := take_inside hinside hiface hrange hroom henough
    refine ⟨iface, network, last, _, hiface, hsubnet, haddresses, ?_, ?_, ?_⟩
    · exact ((searchValues_nodup _ _).filter _).sublist (List.take_sublist _ _)
    · rw [List.length_take]
      exact Nat.min_eq_left henough
    · exact fun c hc => hfree c (List.mem_of_mem_take hc)
  refine ⟨?_, ?_, search_field interfaces⟩
  · intro addresses h
    obtain ⟨iface, network, last, cs, hiface, hsubnet, haddresses, hnodup, hlength, hall⟩ :=
      hok addresses h
    refine ⟨iface, network, last, cs, hiface, hsubnet, haddresses, ?_, hlength, hall⟩
    rw [haddresses]
    exact hnodup.map hostToIpv4_injective
  · intro iface network last hiface hsubnet hfew
    cases hr : (m.allocateLan options ⟨interfaces, answers⟩ count).2 with
    | error error => exact ⟨error, rfl⟩
    | ok addresses =>
      obtain ⟨iface', network', last', cs, hiface', hsubnet', -, hnodup, hlength, hall⟩ :=
        hok addresses hr
      obtain rfl := Option.some.inj (hiface.symm.trans hiface')
      obtain ⟨rfl, rfl⟩ := Prod.mk.inj (Option.some.inj (hsubnet.symm.trans hsubnet'))
      have hcard := length_le_card hnodup hall
      omega

/-- the answers of a system that has each address -/
def Answers.all : Answers := ⟨fun _ => true, fun _ => true, fun _ => true⟩

theorem bound_all (iface : InterfaceAddress) (c : UInt32) :
    (System.mk interfaces .all).bound (lanRecord iface c) = true := by
  unfold System.bound canBindAddress isValidIpv4
  rw [show (lanRecord iface c).address = hostToIpv4 c from rfl, ipv4ToHost_hostToIpv4]
  rfl

/-- **When an allocation is as it is to be**, whatever the system answers: exactly if it takes no address
outside of the subnet. -/
theorem lan_spec_iff (options : HostOptions) (interfaces : Interfaces) (count : Nat)
    (hcount : 2 ≤ count) :
    (∀ answers (m : IpAliasManager),
      LanSpec options interfaces count (m.allocateLan options ⟨interfaces, answers⟩ count).2) ↔
    StaysInside options interfaces count := by
  refine ⟨fun hspec iface hiface hbase => ?_, fun hinside answers m => lan_spec hcount hinside answers m⟩
  by_contra hout
  simp only [not_or, not_forall, not_lt] at hout
  obtain ⟨hpeer, ⟨c, hlow, hlast, hhigh, hnew⟩, henough⟩ := hout
  -- the search starts below the peer, and meets `c` outside of the subnet
  have hne : iface.broadcastHost ≠ 0 := by
    intro hzero
    rw [hzero] at hhigh
    exact absurd hhigh (by simp)
  have hrange : searchRange options iface =
      .ok ((subnetOf iface.addressHost iface.netmaskHost).1, iface.broadcastHost) := by
    rw [searchRange, if_pos hbase]
    simp only
    rw [if_pos hne]
    rfl
  have hroom : ¬iface.broadcastHost ≤ (subnetOf iface.addressHost iface.netmaskHost).1 + 1 := by
    have h1 := UInt32.lt_iff_toNat_lt.mp hlow
    have h2 := UInt32.lt_iff_toNat_lt.mp hhigh
    have h3 := iface.broadcastHost.toNat_lt
    have hone : (1 : UInt32).toNat = 1 := rfl
    rw [UInt32.le_iff_toNat_le, UInt32.toNat_add, hone, Nat.mod_eq_of_lt (by omega)]
    omega
  have hpos := pos_of_room hroom
  rw [← length_unlisted hpos] at henough
  have hmem := (mem_unlisted hpos (listed interfaces)).mpr ⟨hlow, hhigh, hnew⟩
  have hcount' : ([] : List String).length < count := by rw [List.length_nil]; omega
  have hfound : ∃ addresses, (IpAliasManager.allocateLan options ⟨interfaces, .all⟩ {} count).2 =
      .ok addresses := by
    rw [allocateLan_search hcount hiface hrange hroom]
    exact searchFrom_bound (searchValues_nodup _ _) (fun c _ => bound_all iface c) (candidate_listed hiface)
      hcount' (by rw [List.length_nil, Nat.zero_add]; exact henough)
  obtain ⟨addresses, hok⟩ := hfound
  obtain ⟨iface', network, last, cs, hiface', hsubnet, hcs, -, -, hall⟩ :=
    (hspec .all {}).inside addresses hok
  obtain rfl := Option.some.inj (hiface.symm.trans hiface')
  rw [usedSubnet, if_pos hbase] at hsubnet
  rw [allocateLan_search hcount hiface hrange hroom] at hok
  obtain ⟨-, haddresses⟩ := searchFrom_ok (searchValues_nodup _ _) (candidate_listed hiface) hcount' hok
  rw [List.nil_append, List.length_nil, Nat.sub_zero, hcs] at haddresses
  have htake := hostToIpv4_injective.list_map haddresses
  -- the first address is `c` or above it
  cases hfree : unlisted (listed interfaces)
      (searchValues (subnetOf iface.addressHost iface.netmaskHost).1 (iface.broadcastHost - 1)) with
  | nil =>
    rw [hfree] at hmem
    cases hmem
  | cons first rest =>
    have hpairwise := (searchValues_pairwise (subnetOf iface.addressHost iface.netmaskHost).1
      (iface.broadcastHost - 1)).filter fun c => c ∉ listed interfaces
    rw [show List.filter _ _ = first :: rest from hfree] at hpairwise
    have hfirst : c ≤ first := by
      rw [hfree] at hmem
      rcases List.mem_cons.mp hmem with rfl | hrest
      · exact UInt32.le_refl _
      · exact UInt32.le_of_lt ((List.pairwise_cons.mp hpairwise).1 c hrest)
    have hin : first ∈ cs := by
      rw [htake, hfree, show count = count - 1 + 1 by omega, List.take_succ_cons]
      exact List.mem_cons_self
    have hlt : first < (subnetOf iface.addressHost iface.netmaskHost).2 := by
      rw [show (subnetOf iface.addressHost iface.netmaskHost).2 = last from
        congrArg Prod.snd (Option.some.inj hsubnet)]
      exact (hall first hin).2.2
    exact UInt32.lt_irrefl _ (UInt32.lt_of_lt_of_le hlt (UInt32.le_trans hlast hfirst))

/-- an interface of a local network -/
def ethernet : Interfaces where
  addrs := [⟨some "eth0", true, false, some 0xC0A8000A, some 0xFFFFFF00, some 0xC0A800FF⟩]
  defaultInterfaceName := some "eth0"
  loopbackName := "lo"

/-- an interface that is point to point, with its peer in the place of the broadcast address -/
def pointToPoint : Interfaces where
  addrs := [⟨some "tun0", true, false, some 0x0A080001, some 0xFFFFFFFF, some 0x0A080005⟩]
  defaultInterfaceName := some "tun0"
  loopbackName := "lo"

theorem lan_spec_ethernet :
    let options := makeHostOptions ⟨7765, 7654⟩ ⟨0, ∅⟩
    LanSpec options ethernet 2 (IpAliasManager.allocateLan options ⟨ethernet, .all⟩ {} 2).2 := by
  refine (lan_spec_iff (makeHostOptions ⟨7765, 7654⟩ ⟨0, ∅⟩) ethernet 2 (by decide)).mpr ?_ .all {}
  intro iface hiface _
  left
  obtain rfl := Option.some.inj (hiface.symm.trans (show _ = some _ from rfl))
  decide

/-- An interface that is alone in its subnet: the addresses are taken below that of its peer, outside of
the subnet. -/
theorem peer_addresses_taken :
    let options := makeHostOptions ⟨7765, 7654⟩ ⟨0, ∅⟩
    (IpAliasManager.allocateLan options ⟨pointToPoint, .all⟩ {} 2).2 = .ok ["10.8.0.4", "10.8.0.3"] ∧
      (∃ iface, (candidateInterfaces options pointToPoint).head? = some iface ∧
        usedSubnet options iface = some (0x0A080001, 0x0A080001) ∧
        hostToIpv4 0x0A080001 = "10.8.0.1") ∧
      ¬LanSpec options pointToPoint 2
        (IpAliasManager.allocateLan options ⟨pointToPoint, .all⟩ {} 2).2 := by
  intro options
  have hvalues : searchValues 0x0A080001 (0x0A080005 - 1) = [0x0A080004, 0x0A080003, 0x0A080002] := by
    rw [searchValues, dif_pos (by decide), searchValues, dif_pos (by decide), searchValues,
      dif_pos (by decide), searchValues, dif_neg (by decide)]
    rfl
  have hsearch : IpAliasManager.allocateLan options ⟨pointToPoint, .all⟩ {} 2 = _ :=
    allocateLan_search (by decide) rfl rfl (by decide)
  have hok : (IpAliasManager.allocateLan options ⟨pointToPoint, .all⟩ {} 2).2 =
      .ok ["10.8.0.4", "10.8.0.3"] := by
    rw [hsearch]
    change (IpAliasManager.searchFrom _ _ _ _ _ _ _ (searchValues 0x0A080001 (0x0A080005 - 1))).2 = _
    rw [hvalues]
    decide +kernel
  refine ⟨hok, ⟨_, rfl, rfl, by decide +kernel⟩, ?_⟩
  intro hspec
  obtain ⟨iface, network, last, cs, hiface, hsubnet, -, -, hcount, hall⟩ := hspec.inside _ hok
  obtain rfl := Option.some.inj (hiface.symm.trans (show _ = some _ from rfl))
  obtain ⟨rfl, rfl⟩ := Prod.mk.inj (Option.some.inj (hsubnet.symm.trans (show _ = some _ from rfl)))
  -- the subnet holds its own address only
  cases cs with
  | nil => cases hcount
  | cons c cs =>
    obtain ⟨-, hlow, hhigh⟩ := hall c List.mem_cons_self
    exact UInt32.lt_asymm hlow hhigh

end
end LiberaLink.EtherDream
