import Mathlib.Data.Finset.Sort
import LiberaLink.Lib.Lines
import LiberaLink.Runtime.Types

/-!
# The settings files of the GUI

Each file has one entry a line: an id, or an id and the id of a host with a tab between them.  The ids are
written as they are; on the way back the lines are trimmed, and those that begin with a hash are skipped.
A write is taken to succeed.

* `saveControllerHostRoutes`, `loadControllerHostRoutes`   the routes;
* `saveEnabledControllers`, `loadEnabledControllers`       the enabled controllers;
* `Clean`                                                  the ids that come back as they are;
* `settings_round_trip_iff`                                **which maps and sets come back**.
-/

namespace LiberaLink.Gui
open Text

/-- the characters that `trimSettingLine` trims -/
def isSettingSpace (c : Char) : Bool := c = ' ' || c = '\t' || c = '\r' || c = '\n'

def trimSettingLine (line : List Char) : List Char := trim isSettingSpace line

/-- the line is passed over -/
def skipped (line : List Char) : Bool := line.isEmpty || decide (line.head? = some '#')

/-! ## routes -/

/-- the routes in the order of their ids -/
def sortedRoutes (routes : OptionMap) : List (String × String) :=
  (routes.keys.sort (· ≤ ·)).filterMap fun controllerId =>
    (routes.lookup controllerId).map fun hostId => (controllerId, hostId)

def routeLine (route : String × String) : List Char := route.1.toList ++ '\t' :: route.2.toList

def saveControllerHostRoutes (routes : OptionMap) : List Char :=
  joinLines '\n' (((sortedRoutes routes).filter fun route => route.1 ≠ "" ∧ route.2 ≠ "").map routeLine)

/-- the route of a line, if it has one -/
def loadRoute (line : List Char) : Option (String × String) :=
  let line := trimSettingLine line
  if skipped line then none
  else match cut '\t' line with
    | none => none
    | some (before, behind) =>
      let controllerId := trimSettingLine before
      let hostId := trimSettingLine behind
      if controllerId ≠ [] ∧ hostId ≠ [] then some (.ofList controllerId, .ofList hostId) else none

def loadControllerHostRoutes (text : List Char) : OptionMap :=
  ((splitLines '\n' text).filterMap loadRoute).foldl (fun routes route => routes.insert route.1 route.2) ∅

/-! ## enabled controllers -/

def saveEnabledControllers (enabledControllers : Finset String) : List Char :=
  joinLines '\n' ((enabledControllers.sort (· ≤ ·)).map String.toList)

/-- the id of a line, if it has one -/
def loadId (line : List Char) : Option String :=
  let line := trimSettingLine line
  if skipped line then none else some (.ofList line)

def loadEnabledControllers (text : List Char) : Finset String :=
  ((splitLines '\n' text).filterMap loadId).foldl (fun ids id => insert id ids) ∅

/-! ## ids that come back -/

/-- The id is on one line and neither begins nor ends with white space. -/
structure Clean (id : String) : Prop where
  line : '\n' ∉ id.toList
  trimmed : trimSettingLine id.toList = id.toList

/-- a clean id that no line of its own is passed over for -/
structure CleanId (id : String) : Prop extends Clean id where
  hash : id.toList.head? ≠ some '#'

/-- a clean id that ends before the tab of its line -/
structure CleanKey (id : String) : Prop extends CleanId id where
  tab : '\t' ∉ id.toList

theorem toList_ne_nil {id : String} (h : id ≠ "") : id.toList ≠ [] := by
  intro hnil
  exact h (String.toList_inj.mp hnil)

theorem Clean.head {id : String} (h : Clean id) (c : Char) (hc : c ∈ id.toList.head?) :
    isSettingSpace c = false := by
  rw [← h.trimmed] at hc
  exact trim_head c hc

theorem Clean.last {id : String} (h : Clean id) (c : Char) (hc : c ∈ id.toList.getLast?) :
    isSettingSpace c = false := by
  rw [← h.trimmed] at hc
  exact trim_last c hc

/-- what is left of a line after trimming is clean -/
theorem clean_trim {line : List Char} (h : '\n' ∉ line) : Clean (.ofList (trimSettingLine line)) where
  line := by
    rw [String.toList_ofList]
    exact fun hmem => h (mem_of_mem_trim hmem)
  trimmed := by
    rw [String.toList_ofList]
    exact trim_trim

/-- **A line with an id** is what a clean id is written as. -/
theorem loadId_clean {line : List Char} {id : String} (hline : '\n' ∉ line) (h : loadId line = some id) :
    CleanId id := by
  unfold loadId at h
  simp only at h
  split at h
  · cases h
  · rename_i hskip
    obtain rfl := Option.some.inj h
    refine ⟨clean_trim hline, ?_⟩
    rw [String.toList_ofList]
    intro hhash
    exact hskip (by simp [skipped, hhash])

theorem loadId_toList {id : String} (hne : id ≠ "") (h : CleanId id) : loadId id.toList = some id := by
  unfold loadId
  simp only
  rw [h.trimmed, if_neg, String.ofList_toList]
  have hnil := toList_ne_nil hne
  simp [skipped, hnil, h.hash]

/-- **A line with a route** is what two clean ids are written as. -/
theorem loadRoute_clean {line : List Char} {route : String × String} (hline : '\n' ∉ line)
    (h : loadRoute line = some route) : CleanKey route.1 ∧ Clean route.2 := by
  unfold loadRoute at h
  simp only at h
  split at h
  · cases h
  · rename_i hskip
    split at h
    · cases h
    · rename_i before behind hcut
      split at h
      · rename_i hne
        obtain rfl := Option.some.inj h
        obtain ⟨htext, htab⟩ := cut_eq_some_iff.mp hcut
        have hline' : '\n' ∉ trimSettingLine line := fun hmem => hline (mem_of_mem_trim hmem)
        rw [htext] at hline'
        have hbefore : '\n' ∉ before := fun hmem => hline' (List.mem_append_left _ hmem)
        have hbehind : '\n' ∉ behind := fun hmem =>
          hline' (List.mem_append_right _ (List.mem_cons_of_mem _ hmem))
        refine ⟨⟨⟨clean_trim hbefore, ?_⟩, ?_⟩, clean_trim hbehind⟩
        · -- the id begins as the line does, which has no hash there
          rw [String.toList_ofList]
          have hnil : before ≠ [] := by
            rintro rfl
            exact hne.1 rfl
          have hfirst : (trimSettingLine line).head? = before.head? := by
            rw [htext]
            cases before with
            | nil => exact absurd rfl hnil
            | cons c before => rfl
          have hspace : ∀ c ∈ before.head?, isSettingSpace c = false := by
            intro c hc
            rw [← hfirst] at hc
            exact trim_head c hc
          rw [show (trimSettingLine before).head? = before.head? from head?_trim hspace hne.1, ← hfirst]
          intro hhash
          exact hskip (by simp [skipped, hhash])
        · rw [String.toList_ofList]
          exact fun hmem => htab (mem_of_mem_trim hmem)
      · cases h

theorem loadRoute_routeLine {route : String × String} (hid : route.1 ≠ "") (hhost : route.2 ≠ "")
    (h : CleanKey route.1) (h' : Clean route.2) : loadRoute (routeLine route) = some route := by
  have hidNil := toList_ne_nil hid
  have hhostNil := toList_ne_nil hhost
  have hhead : (routeLine route).head? = route.1.toList.head? := by
    unfold routeLine
    rw [List.head?_append_of_ne_nil _ hidNil]
  have hlast : (routeLine route).getLast? = route.2.toList.getLast? := by
    unfold routeLine
    rw [List.getLast?_append_of_ne_nil _ (List.cons_ne_nil _ _), List.getLast?_cons]
    cases hend : route.2.toList.getLast? with
    | none => exact absurd (List.getLast?_eq_none_iff.mp hend) hhostNil
    | some c => rfl
  have htrim : trimSettingLine (routeLine route) = routeLine route := by
    refine trim_eq_self ?_ ?_
    · rw [hhead]
      exact h.head
    · rw [hlast]
      exact h'.last
  have hskip : skipped (routeLine route) = false := by
    have hne : (routeLine route).isEmpty = false := by simp [routeLine]
    rw [skipped, hne, hhead, Bool.false_or]
    exact decide_eq_false h.hash
  have hcut : cut '\t' (routeLine route) = some (route.1.toList, route.2.toList) :=
    cut_eq_some_iff.mpr ⟨rfl, h.tab⟩
  unfold loadRoute
  simp only
  rw [htrim, hskip, if_neg Bool.false_ne_true, hcut]
  simp only
  rw [h.trimmed, h'.trimmed, if_pos ⟨hidNil, hhostNil⟩, String.ofList_toList, String.ofList_toList]

/-! ## what comes back -/

/-- an id that was put into a set is one of the list -/
theorem mem_foldl_insert {id : String} {ids : List String} {set : Finset String} :
    id ∈ ids.foldl (fun ids id => insert id ids) set ↔ id ∈ set ∨ id ∈ ids := by
  induction ids generalizing set with
  | nil => simp
  | cons x ids ih =>
    rw [List.foldl_cons, ih, Finset.mem_insert, List.mem_cons]
    tauto

/-- a route that is looked up was in the map or is one of the list -/
theorem lookup_foldl_insert {routes : OptionMap} {list : List (String × String)} {id host : String}
    (h : (list.foldl (fun routes route => routes.insert route.1 route.2) routes).lookup id = some host) :
    routes.lookup id = some host ∨ (id, host) ∈ list := by
  induction list generalizing routes with
  | nil => exact .inl h
  | cons route list ih =>
    rcases ih h with hmap | hlist
    · by_cases hid : id = route.1
      · subst hid
        rw [Finmap.lookup_insert] at hmap
        obtain rfl := Option.some.inj hmap
        exact .inr List.mem_cons_self
      · rw [Finmap.lookup_insert_of_ne _ hid] at hmap
        exact .inl hmap
    · exact .inr (List.mem_cons_of_mem _ hlist)

/-- routes of a map, inserted one after the other -/
theorem lookup_foldl_insert_of {routes start : OptionMap} {list : List (String × String)}
    (h : ∀ route ∈ list, routes.lookup route.1 = some route.2) (id : String) :
    (list.foldl (fun routes route => routes.insert route.1 route.2) start).lookup id =
      if id ∈ list.map Prod.fst then routes.lookup id else start.lookup id := by
  induction list generalizing start with
  | nil => rfl
  | cons route list ih =>
    rw [List.foldl_cons, ih fun route hmem => h route (List.mem_cons_of_mem _ hmem)]
    by_cases hid : id = route.1
    · subst hid
      rw [Finmap.lookup_insert, h route List.mem_cons_self, ite_self, List.map_cons,
        if_pos List.mem_cons_self]
    · rw [Finmap.lookup_insert_of_ne _ hid]
      have hmem : id ∈ (route :: list).map Prod.fst ↔ id ∈ list.map Prod.fst := by
        rw [List.map_cons, List.mem_cons]
        exact or_iff_right hid
      simp only [hmem]

theorem mem_sortedRoutes {routes : OptionMap} {id host : String} :
    (id, host) ∈ sortedRoutes routes ↔ routes.lookup id = some host := by
  unfold sortedRoutes
  rw [List.mem_filterMap]
  constructor
  · rintro ⟨controllerId, _, hroute⟩
    obtain ⟨hostId, hlookup, heq⟩ := Option.map_eq_some_iff.mp hroute
    obtain ⟨rfl, rfl⟩ := Prod.mk.inj heq
    exact hlookup
  · intro hlookup
    refine ⟨id, ?_, by rw [hlookup]; rfl⟩
    rw [Finset.mem_sort, Finmap.mem_keys, ← Finmap.lookup_isSome, hlookup]
    rfl

theorem loadControllerHostRoutes_clean {text : List Char} {id host : String}
    (h : (loadControllerHostRoutes text).lookup id = some host) : CleanKey id ∧ Clean host := by
  rcases lookup_foldl_insert h with hnone | hmem
  · rw [Finmap.lookup_empty] at hnone
    cases hnone
  · obtain ⟨line, hline, hload⟩ := List.mem_filterMap.mp hmem
    exact loadRoute_clean (sep_not_mem_splitLines hline) hload

theorem loadEnabledControllers_clean {text : List Char} {id : String}
    (h : id ∈ loadEnabledControllers text) : CleanId id := by
  rcases mem_foldl_insert.mp h with hnone | hmem
  · cases hnone
  · obtain ⟨line, hline, hload⟩ := List.mem_filterMap.mp hmem
    exact loadId_clean (sep_not_mem_splitLines hline) hload

/-- reading the lines that were written -/
theorem filterMap_lines {β : Type} {load : List Char → Option β} {write : β → List Char}
    {entries : List β}
    (hline : ∀ e ∈ entries, '\n' ∉ write e) (hload : ∀ e ∈ entries, load (write e) = some e) :
    (splitLines '\n' (joinLines '\n' (entries.map write))).filterMap load = entries := by
  rw [splitLines_joinLines (by simpa using hline), List.filterMap_map]
  exact (List.filterMap_congr hload).trans List.filterMap_some

theorem routes_round_trip {routes : OptionMap}
    (hne : ∀ id host, routes.lookup id = some host → id ≠ "" ∧ host ≠ "")
    (hclean : ∀ id host, routes.lookup id = some host → CleanKey id ∧ Clean host) :
    loadControllerHostRoutes (saveControllerHostRoutes routes) = routes := by
  have hall : (sortedRoutes routes).filter (fun route => route.1 ≠ "" ∧ route.2 ≠ "") =
      sortedRoutes routes := by
    rw [List.filter_eq_self]
    rintro ⟨id, host⟩ hmem
    exact decide_eq_true (hne id host (mem_sortedRoutes.mp hmem))
  have hread : (splitLines '\n' (saveControllerHostRoutes routes)).filterMap loadRoute =
      sortedRoutes routes := by
    unfold saveControllerHostRoutes
    rw [hall]
    refine filterMap_lines ?_ ?_
    · rintro ⟨id, host⟩ hmem hnewline
      obtain ⟨hid, hhost⟩ := hclean id host (mem_sortedRoutes.mp hmem)
      rcases List.mem_append.mp hnewline with hbefore | hbehind
      · exact hid.line hbefore
      · rcases List.mem_cons.mp hbehind with htab | hrest
        · exact absurd htab (by decide)
        · exact hhost.line hrest
    · rintro ⟨id, host⟩ hmem
      have hlookup := mem_sortedRoutes.mp hmem
      obtain ⟨hid, hhost⟩ := hclean id host hlookup
      exact loadRoute_routeLine (hne id host hlookup).1 (hne id host hlookup).2 hid hhost
  refine Finmap.ext_lookup fun id => ?_
  unfold loadControllerHostRoutes
  rw [hread, lookup_foldl_insert_of fun route hmem => mem_sortedRoutes.mp hmem]
  split
  · rfl
  · rename_i hmem
    cases hlookup : routes.lookup id with
    | none => exact Finmap.lookup_empty id
    | some host =>
      exact absurd (List.mem_map.mpr ⟨(id, host), mem_sortedRoutes.mpr hlookup, rfl⟩) hmem

theorem enabled_round_trip {ids : Finset String} (hne : ∀ id ∈ ids, id ≠ "")
    (hclean : ∀ id ∈ ids, CleanId id) : loadEnabledControllers (saveEnabledControllers ids) = ids := by
  have hread : (splitLines '\n' (saveEnabledControllers ids)).filterMap loadId = ids.sort (· ≤ ·) := by
    refine filterMap_lines ?_ ?_
    · intro id hmem
      exact (hclean id ((Finset.mem_sort _).mp hmem)).line
    · intro id hmem
      have hid := (Finset.mem_sort _).mp hmem
      exact loadId_toList (hne id hid) (hclean id hid)
  ext id
  unfold loadEnabledControllers
  rw [hread, mem_foldl_insert, Finset.mem_sort]
  simp

/-- **What the settings files give back.**  Routes come back exactly if each id is clean, no controller id
begins with a hash and none has a tab; enabled controllers come back exactly if each id is clean and none
begins with a hash. -/
theorem settings_round_trip_iff (routes : OptionMap) (ids : Finset String)
    (hroutes : ∀ id host, routes.lookup id = some host → id ≠ "" ∧ host ≠ "")
    (hids : ∀ id ∈ ids, id ≠ "") :
    (loadControllerHostRoutes (saveControllerHostRoutes routes) = routes ↔
      ∀ id host, routes.lookup id = some host → CleanKey id ∧ Clean host) ∧
    (loadEnabledControllers (saveEnabledControllers ids) = ids ↔ ∀ id ∈ ids, CleanId id) := by
  refine ⟨⟨fun h id host hlookup => ?_, routes_round_trip hroutes⟩,
    ⟨fun h id hmem => ?_, enabled_round_trip hids⟩⟩
  · rw [← h] at hlookup
    exact loadControllerHostRoutes_clean hlookup
  · rw [← h] at hmem
    exact loadEnabledControllers_clean hmem

theorem lookup_singleton {id host a b : String}
    (h : (Finmap.singleton id host : OptionMap).lookup a = some b) : a = id ∧ b = host := by
  by_cases ha : a = id
  · subst ha
    rw [Finmap.lookup_singleton_eq] at h
    exact ⟨rfl, (Option.some.inj h).symm⟩
  · have hmem := Finmap.lookup_isSome.mp (by rw [h]; rfl)
    exact absurd (Finmap.mem_singleton _ _ _ |>.mp hmem) ha

/-- an id with a blank in it -/
theorem settings_round_trip_blank :
    loadControllerHostRoutes (saveControllerHostRoutes (Finmap.singleton "USB 1" "idn")) =
        Finmap.singleton "USB 1" "idn" ∧
      loadEnabledControllers (saveEnabledControllers {"USB 1"}) = {"USB 1"} := by
  have hid : CleanKey "USB 1" :=
    ⟨⟨⟨by decide +kernel, by decide +kernel⟩, by decide +kernel⟩, by decide +kernel⟩
  have hhost : Clean "idn" := ⟨by decide +kernel, by decide +kernel⟩
  have h := settings_round_trip_iff (Finmap.singleton "USB 1" "idn") {"USB 1"} ?_ ?_
  · refine ⟨h.1.mpr fun id host hlookup => ?_, h.2.mpr fun id hmem => ?_⟩
    · obtain ⟨rfl, rfl⟩ := lookup_singleton hlookup
      exact ⟨hid, hhost⟩
    · rw [Finset.mem_singleton.mp hmem]
      exact hid.toCleanId
  · intro id host hlookup
    obtain ⟨rfl, rfl⟩ := lookup_singleton hlookup
    exact ⟨by decide, by decide⟩
  · intro id hmem
    rw [Finset.mem_singleton.mp hmem]
    decide

/-- An id that begins with a hash is taken for a comment; one with a tab is taken apart. -/
theorem settings_lose_ids :
    loadEnabledControllers (saveEnabledControllers {"#1"}) = ∅ ∧
      (loadControllerHostRoutes (saveControllerHostRoutes
        (Finmap.singleton "USB\t1" "idn"))).lookup "USB\t1" = none := by
  have henabled : saveEnabledControllers {"#1"} = "#1\n".toList := by
    unfold saveEnabledControllers
    rw [Finset.sort_singleton]
    decide +kernel
  have hroutes : sortedRoutes (Finmap.singleton "USB\t1" "idn") = [("USB\t1", "idn")] := by
    unfold sortedRoutes
    rw [Finmap.keys_singleton, Finset.sort_singleton]
    decide +kernel
  refine ⟨?_, ?_⟩
  · rw [henabled]
    decide +kernel
  · unfold saveControllerHostRoutes
    rw [hroutes]
    decide +kernel

end LiberaLink.Gui
