import LiberaLink.Lib.Lines
import LiberaLink.Lib.Scan
import LiberaLink.Sink.Options

/-!
# The AVB settings file

The file has one entry a line: a device with its point rate, or a bank whose output is half X/Y.  Ids are
quoted.  Blank lines and lines that begin with a hash are passed over; any other line fails the whole load.

* `loadAvbSettings`, `saveAvbSettings`   the functions of the program;
* `SettingLine`                          the lines that are valid, and the entry of each;
* `readAvbSetting_iff`                   **the reader follows the grammar**;
* `load_avb_settings`                    **what a load accepts, and what it leaves**.
-/

namespace LiberaLink
open Text IStream

structure AvbDeviceConfiguration where
  deviceUid : String
  preferredPointRate : Nat
deriving DecidableEq, Repr

/-- The AVB backend, as far as its setup goes: it returns the lists that it was given. -/
structure AvbManager (σ : Type) where
  configuredDevices : σ → List AvbDeviceConfiguration
  halfXYOutputControllers : σ → List String
  setConfiguredDevices : List AvbDeviceConfiguration → σ → σ
  setHalfXYOutputControllers : List String → σ → σ
  configuredDevices_set : ∀ configs s, configuredDevices (setConfiguredDevices configs s) = configs
  halfXYOutputControllers_set : ∀ ids s, halfXYOutputControllers (setHalfXYOutputControllers ids s) = ids
  configuredDevices_setHalfXY : ∀ ids s,
    configuredDevices (setHalfXYOutputControllers ids s) = configuredDevices s

/-- a backend that keeps the two lists -/
def AvbManager.lists : AvbManager (List AvbDeviceConfiguration × List String) where
  configuredDevices := Prod.fst
  halfXYOutputControllers := Prod.snd
  setConfiguredDevices configs s := (configs, s.2)
  setHalfXYOutputControllers ids s := (s.1, ids)
  configuredDevices_set _ _ := rfl
  halfXYOutputControllers_set _ _ := rfl
  configuredDevices_setHalfXY _ _ := rfl

/-! ## loading -/

/-- an entry of the file -/
inductive AvbSetting
  | device (config : AvbDeviceConfiguration)
  | halfXY (controllerId : String)
deriving DecidableEq, Repr

/-- the entry of a line with this kind and id, if it is valid; the stream behind it -/
def avbEntry (kind id : List Char) (fields : IStream) : Option AvbSetting × IStream :=
  if fields.fail = true ∨ id = [] then (none, fields)
  else if kind = "device".toList then
    let (pointRate, fields) := fields.int64 isSpace
    if fields.fail = false ∧ 0 < pointRate ∧ pointRate ≤ 2 ^ 32 - 1 then
      (some (.device ⟨.ofList id, (pointRate % 2 ^ 32).toNat⟩), fields)
    else (none, fields)
  else if kind = "half-xy".toList then (some (.halfXY (.ofList id)), fields)
  else (none, fields)

/-- Reads a line: `none` if it is not valid, `some none` if it is passed over. -/
def readAvbSetting (line : List Char) : Option (Option AvbSetting) :=
  let fields := (IStream.ofText line).ws isSpace
  if fields.eof = true ∨ fields.rest.head? = some '#' then some none
  else
    let (kind, fields) := fields.word isSpace
    let (id, fields) := fields.quoted isSpace '"' '\\'
    let (entry, fields) := avbEntry kind id fields
    if entry = none ∨ (fields.ws isSpace).eof = false then none else some entry

/-- The lists of the lines, behind those read before; an error is the number of a line. -/
def readAvbLines : List (List Char) → Nat → List AvbDeviceConfiguration → List String →
    Except Nat (List AvbDeviceConfiguration × List String)
  | [], _, configs, halfXYControllers => .ok (configs, halfXYControllers)
  | line :: lines, lineNumber, configs, halfXYControllers =>
    match readAvbSetting line with
    | none => .error (lineNumber + 1)
    | some none => readAvbLines lines (lineNumber + 1) configs halfXYControllers
    | some (some (.device config)) =>
      readAvbLines lines (lineNumber + 1) (configs ++ [config]) halfXYControllers
    | some (some (.halfXY id)) =>
      readAvbLines lines (lineNumber + 1) configs (halfXYControllers ++ [id])

/-- what the file system has at the path -/
inductive SettingsFile
  | unknown (message : String)
  | missing
  | unopened
  /-- `bad` if reading ended with an error -/
  | opened (text : List Char) (bad : Bool)

structure AvbLoad (σ : Type) where
  ok : Bool
  error : String
  setup : σ

section
variable {σ : Type} (manager : AvbManager σ) (path : String)

def loadAvbSettings (file : SettingsFile) (setup : σ) : AvbLoad σ :=
  match file with
  | .unknown message => ⟨false, "Cannot read AVB settings: " ++ message, setup⟩
  | .missing => ⟨true, "", setup⟩
  | .unopened => ⟨false, "Cannot open AVB settings: " ++ path, setup⟩
  | .opened text bad =>
    match readAvbLines (splitLines '\n' text) 0 [] [] with
    | .error lineNumber => ⟨false, "Invalid AVB setting on line " ++ toString lineNumber ++ ".", setup⟩
    | .ok (configs, halfXYControllers) =>
      if bad then ⟨false, "Cannot finish reading AVB settings: " ++ path, setup⟩
      else
        ⟨true, "", manager.setHalfXYOutputControllers halfXYControllers
          (manager.setConfiguredDevices configs setup)⟩

/-! ## saving -/

def deviceLine (config : AvbDeviceConfiguration) : List Char :=
  "device ".toList ++
    (quote '"' '\\' config.deviceUid.toList ++ ' ' :: (toString config.preferredPointRate).toList)

def halfXYLine (id : String) : List Char := "half-xy ".toList ++ quote '"' '\\' id.toList

def avbSettingsLines (setup : σ) : List (List Char) :=
  "# Libera Link AVB interfaces and per-bank output settings".toList ::
    ((manager.configuredDevices setup).map deviceLine ++
      (manager.halfXYOutputControllers setup).map halfXYLine)

/-- the text of the file; an error if it cannot be written -/
def saveAvbSettings (writable : Bool) (setup : σ) : Except String (List Char) :=
  if writable then .ok (joinLines '\n' (avbSettingsLines manager setup))
  else .error ("AVB settings could not be saved to " ++ path ++ ".")

end

/-! ## the lines that are valid -/

/-- the id between quotes -/
def QuotedId (text id : List Char) : Prop :=
  ∃ body, text = '"' :: (body ++ ['"']) ∧ Quotes '"' '\\' body id

/-- the id as it is -/
def BareId (text id : List Char) : Prop := text = id ∧ IsWord isSpace id ∧ id.head? ≠ some '"'

/-- a line that is valid, and its entry if it has one -/
inductive SettingLine : List Char → Option AvbSetting → Prop
  | blank {line : List Char} (hline : Blank isSpace line) : SettingLine line none
  | comment {before after : List Char} (hbefore : Blank isSpace before) :
      SettingLine (before ++ '#' :: after) none
  | device {before gap text id between number after : List Char} {value : Int}
      (hbefore : Blank isSpace before) (hgap : Blank isSpace gap) (hgap' : gap ≠ [])
      (hid : QuotedId text id ∨ BareId text id ∧ between ≠ []) (hne : id ≠ [])
      (hbetween : Blank isSpace between) (hnumber : IsNumber number value)
      (hlow : 1 ≤ value) (hhigh : value ≤ 2 ^ 32 - 1) (hafter : Blank isSpace after) :
      SettingLine (before ++ ("device".toList ++ (gap ++ (text ++ (between ++ (number ++ after))))))
        (some (.device ⟨.ofList id, value.toNat⟩))
  | halfXY {before gap text id after : List Char}
      (hbefore : Blank isSpace before) (hgap : Blank isSpace gap) (hgap' : gap ≠ [])
      (hid : QuotedId text id ∨ BareId text id) (hne : id ≠ []) (hafter : Blank isSpace after) :
      SettingLine (before ++ ("half-xy".toList ++ (gap ++ (text ++ after)))) (some (.halfXY (.ofList id)))

theorem numbersShow_isSpace : NumbersShow isSpace := by
  rintro c (hdigit | rfl | rfl)
  · rw [Char.isDigit, Bool.and_eq_true, decide_eq_true_eq, decide_eq_true_eq] at hdigit
    have hlow : 48 ≤ c.toNat := UInt32.le_iff_toNat_le.mp hdigit.1
    unfold isSpace
    rw [Bool.or_eq_false_iff, Bool.and_eq_false_iff]
    refine ⟨decide_eq_false ?_, .inr (decide_eq_false (by omega))⟩
    rintro rfl
    exact absurd hlow (by decide)
  · decide
  · decide

/-- an id is read in either form -/
theorem quoted_id {gap text id after : List Char} (hgap : Blank isSpace gap)
    (hid : QuotedId text id ∨ BareId text id ∧ WordEnds isSpace after) :
    ∃ eof, (eof = true → after = []) ∧
      quoted isSpace '"' '\\' (ofText (gap ++ (text ++ after))) = (id, ⟨after, eof, false⟩) := by
  rcases hid with ⟨body, rfl, hquotes⟩ | ⟨⟨rfl, hword, hhead⟩, hafter⟩
  · refine ⟨false, fun h => absurd h Bool.false_ne_true, ?_⟩
    rw [List.cons_append, List.append_assoc]
    exact quoted_of hgap (by decide) (by decide) hquotes after
  · exact ⟨after.isEmpty, List.isEmpty_iff.mp, bare_of hgap hword hhead hafter⟩

theorem ends_of_blank {gap : List Char} (h : Blank isSpace gap) (hne : gap ≠ []) (after : List Char) :
    WordEnds isSpace (gap ++ after) := by
  cases gap with
  | nil => exact absurd rfl hne
  | cons c gap =>
    intro d hd
    obtain rfl := Option.some.inj hd
    exact h c List.mem_cons_self

theorem wordEnds_of_blank {after : List Char} (h : Blank isSpace after) : WordEnds isSpace after :=
  fun c hc => h c (List.mem_of_mem_head? hc)

/-- the reader behind the kind of a line -/
theorem readAvbSetting_kind {before kind gap rest : List Char} (hbefore : Blank isSpace before)
    (hkind : IsWord isSpace kind) (hhash : kind.head? ≠ some '#') (hgap : Blank isSpace gap)
    (hgap' : gap ≠ []) :
    readAvbSetting (before ++ (kind ++ (gap ++ rest))) =
      (let id := quoted isSpace '"' '\\' (ofText (gap ++ rest))
       let entry := avbEntry kind id.1 id.2
       if entry.1 = none ∨ (entry.2.ws isSpace).eof = false then none else some entry.1) := by
  have hends : WordEnds isSpace (gap ++ rest) := ends_of_blank hgap hgap' rest
  have hne : gap ++ rest ≠ [] := fun h => hgap' (List.append_eq_nil_iff.mp h).1
  have hword := word_of blank_nil hkind hends
  rw [List.nil_append, behind_of_ne_nil hne] at hword
  unfold readAvbSetting
  simp only
  rw [ws_of hbefore (hkind.starts _), if_neg, hword]
  rintro (heof | hhead)
  · cases heof
  · refine hhash ?_
    cases kind with
    | nil => exact absurd rfl hkind.1
    | cons c kind => exact hhead

theorem isWord_device : IsWord isSpace "device".toList := by decide

theorem isWord_halfXY : IsWord isSpace "half-xy".toList := by decide

/-- **A valid line is read.** -/
theorem SettingLine.read {line : List Char} {e : Option AvbSetting} (h : SettingLine line e) :
    readAvbSetting line = some e := by
  cases h with
  | blank hline =>
    have heof : (ws isSpace (ofText line)).eof = true :=
      (ws_eof_iff fun h => absurd h Bool.false_ne_true).mpr hline
    unfold readAvbSetting
    simp only
    rw [if_pos (.inl heof)]
  | @comment before after hbefore =>
    unfold readAvbSetting
    simp only
    rw [ws_of hbefore ⟨'#', after, rfl, by decide⟩, if_pos (.inr rfl)]
  | @device before gap text id between number after value hbefore hgap hgap' hid hne hbetween hnumber hlow
      hhigh hafter =>
    have hid' : QuotedId text id ∨ BareId text id ∧ WordEnds isSpace (between ++ (number ++ after)) :=
      hid.imp_right fun h => ⟨h.1, ends_of_blank hbetween h.2 _⟩
    obtain ⟨eof, heof, hquoted⟩ := quoted_id hgap hid'
    have hrest : between ++ (number ++ after) ≠ [] := by
      intro hnil
      obtain ⟨c, rest, hstart, -⟩ := isNumber_starts numbersShow_isSpace hnumber after
      rw [(List.append_eq_nil_iff.mp hnil).2] at hstart
      cases hstart
    obtain rfl : eof = false := by
      cases eof with
      | true => exact absurd (heof rfl) hrest
      | false => rfl
    have hdigits : ∀ c ∈ after.head?, c.isDigit = false := by
      intro c hc
      refine Bool.eq_false_iff.mpr fun hdigit => ?_
      have hspace := hafter c (List.mem_of_mem_head? hc)
      rw [numbersShow_isSpace c (.inl hdigit)] at hspace
      cases hspace
    have hint := int64_of numbersShow_isSpace hbetween hnumber (by omega) (by omega) hdigits
    have hentry : avbEntry "device".toList id (ofText (between ++ (number ++ after))) =
        (some (.device ⟨.ofList id, value.toNat⟩), behind after) := by
      unfold avbEntry
      rw [if_neg, if_pos rfl, hint]
      · simp only
        rw [if_pos ⟨rfl, by omega, hhigh⟩, Int.emod_eq_of_lt (by omega) (by omega)]
      · rintro (hfail | hnil)
        · cases hfail
        · exact hne hnil
    rw [readAvbSetting_kind hbefore isWord_device (by decide) hgap hgap', hquoted]
    simp only
    rw [show (⟨between ++ (number ++ after), false, false⟩ : IStream) = ofText _ from rfl, hentry, if_neg]
    rintro (hnone | hend)
    · cases hnone
    · rw [show ws isSpace (behind after) = ws isSpace ⟨after, after.isEmpty, false⟩ from rfl,
        (ws_eof_iff List.isEmpty_iff.mp).mpr hafter] at hend
      cases hend
  | @halfXY before gap text id after hbefore hgap hgap' hid hne hafter =>
    obtain ⟨eof, heof, hquoted⟩ := quoted_id hgap (hid.imp_right fun h => ⟨h, wordEnds_of_blank hafter⟩)
    have hentry : avbEntry "half-xy".toList id ⟨after, eof, false⟩ =
        (some (.halfXY (.ofList id)), ⟨after, eof, false⟩) := by
      unfold avbEntry
      rw [if_neg, if_neg (by decide), if_pos rfl]
      rintro (hfail | hnil)
      · cases hfail
      · exact hne hnil
    rw [readAvbSetting_kind hbefore isWord_halfXY (by decide) hgap hgap', hquoted]
    simp only
    rw [hentry, if_neg]
    rintro (hnone | hend)
    · cases hnone
    · rw [(ws_eof_iff heof).mpr hafter] at hend
      cases hend

/-- a stream that an id was read from -/
theorem quoted_cases_id {s : IStream} (h : (quoted isSpace '"' '\\' s).2.fail = false) :
    ∃ gap text id after eof, s = ofText (gap ++ (text ++ after)) ∧ Blank isSpace gap ∧
      (QuotedId text id ∨ BareId text id ∧ WordEnds isSpace after) ∧ Starts isSpace (text ++ after) ∧
      (eof = true → after = []) ∧ quoted isSpace '"' '\\' s = (id, ⟨after, eof, false⟩) := by
  obtain ⟨gap, hgap, hid⟩ := quoted_cases (by decide) (by decide) h
  rcases hid with ⟨body, id, after, rfl, hquotes, hread⟩ | ⟨id, after, rfl, hword, hhead, hafter, hread⟩
  · refine ⟨gap, '"' :: (body ++ ['"']), id, after, false, ?_, hgap, .inl ⟨body, rfl, hquotes⟩,
      ⟨'"', _, rfl, by decide⟩, fun h => absurd h Bool.false_ne_true, hread⟩
    rw [List.cons_append, List.append_assoc]
    rfl
  · exact ⟨gap, id, id, after, after.isEmpty, rfl, hgap, .inr ⟨⟨rfl, hword, hhead⟩, hafter⟩,
      hword.starts after, List.isEmpty_iff.mp, hread⟩

/-- what an entry was made from -/
theorem avbEntry_cases {kind id : List Char} {fields : IStream} {setting : AvbSetting}
    (h : (avbEntry kind id fields).1 = some setting) :
    fields.fail = false ∧ id ≠ [] ∧
      ((kind = "device".toList ∧ (int64 isSpace fields).2.fail = false ∧ 1 ≤ (int64 isSpace fields).1 ∧
          (int64 isSpace fields).1 ≤ 2 ^ 32 - 1 ∧
          avbEntry kind id fields =
            (some (.device ⟨.ofList id, (int64 isSpace fields).1.toNat⟩), (int64 isSpace fields).2)) ∨
        kind = "half-xy".toList ∧ avbEntry kind id fields = (some (.halfXY (.ofList id)), fields)) := by
  by_cases hbad : fields.fail = true ∨ id = []
  · unfold avbEntry at h
    rw [if_pos hbad] at h
    cases h
  · rw [not_or, Bool.not_eq_true] at hbad
    refine ⟨hbad.1, hbad.2, ?_⟩
    have hgood : ¬(fields.fail = true ∨ id = []) := by rw [not_or, Bool.not_eq_true]; exact hbad
    unfold avbEntry at h ⊢
    rw [if_neg hgood] at h ⊢
    by_cases hdevice : kind = "device".toList
    · rw [if_pos hdevice] at h ⊢
      simp only at h ⊢
      split at h
      · rename_i hrate
        refine .inl ⟨hdevice, hrate.1, hrate.2.1, hrate.2.2, ?_⟩
        rw [if_pos hrate, Int.emod_eq_of_lt (by omega) (by omega)]
      · cases h
    · rw [if_neg hdevice] at h ⊢
      split at h
      · rename_i hhalfXY
        exact .inr ⟨hhalfXY, if_pos hhalfXY⟩
      · cases h

/-- between what ends a word and what begins one there is white space -/
theorem ne_nil_of_ends {gap text : List Char} (h : WordEnds isSpace (gap ++ text))
    (hstarts : Starts isSpace text) : gap ≠ [] := by
  rintro rfl
  obtain ⟨c, rest, rfl, hc⟩ := hstarts
  rw [h c rfl] at hc
  cases hc

/-- **A line that is read is valid.** -/
theorem settingLine_of_read {line : List Char} {e : Option AvbSetting}
    (h : readAvbSetting line = some e) :
    SettingLine line e := by
  rcases ws_cases isSpace line with ⟨hblank, heof⟩ | ⟨before, rest, rfl, hbefore, hstarts, hws⟩
  · unfold readAvbSetting at h
    simp only at h
    rw [if_pos (.inl heof)] at h
    obtain rfl := Option.some.inj h
    exact .blank hblank
  · unfold readAvbSetting at h
    simp only at h
    rw [hws] at h
    split at h
    · rename_i hhash
      obtain rfl := Option.some.inj h
      rcases hhash with heof | hhash
      · cases heof
      · obtain ⟨c, rest, rfl, -⟩ := hstarts
        obtain rfl := Option.some.inj hhash
        exact .comment hbefore
    · split at h
      · cases h
      · rename_i hend
        rw [not_or, Bool.not_eq_false] at hend
        obtain rfl := Option.some.inj h
        obtain ⟨setting, hsetting⟩ := Option.ne_none_iff_exists'.mp hend.1
        obtain ⟨hfail, hne, hkind⟩ := avbEntry_cases hsetting
        -- the id stands behind a word of its own
        obtain ⟨gap, text, id, after, eof, hstream, hgap, hid, htext, heof, hquoted⟩ :=
          quoted_cases_id hfail
        have hword : (word isSpace (ofText rest)).2.fail = false := by
          rw [hstream]
          rfl
        obtain ⟨before', kind, after', hrest, hbefore', hkind', hafter', hread⟩ := word_cases hword
        rw [hread] at hstream hkind hne hend hquoted ⊢
        obtain rfl : after' = gap ++ (text ++ after) := congrArg IStream.rest hstream
        obtain rfl : rest = before' ++ (kind ++ (gap ++ (text ++ after))) := congrArg IStream.rest hrest
        have hgap' := ne_nil_of_ends hafter' htext
        have hblank : Blank isSpace (before ++ before') := by
          intro c hc
          rcases List.mem_append.mp hc with hc | hc
          · exact hbefore c hc
          · exact hbefore' c hc
        rw [hquoted] at hkind hne hend ⊢
        simp only at hkind hne hend ⊢
        rcases hkind with ⟨rfl, hfail, hlow, hhigh, hentry⟩ | ⟨rfl, hentry⟩
        · obtain ⟨between, number, value, tail, hstream, hbetween, hnumber, hint⟩ := int64_cases hfail
          obtain rfl : after = between ++ (number ++ tail) := congrArg IStream.rest hstream
          rw [hentry] at hend ⊢
          rw [hint] at hlow hhigh hend ⊢
          have htail : Blank isSpace tail := (ws_eof_iff List.isEmpty_iff.mp).mp hend.2
          rw [← List.append_assoc]
          refine .device hblank hgap hgap' ?_ hne hbetween hnumber hlow hhigh htail
          exact hid.imp_right fun h =>
            ⟨h.1, ne_nil_of_ends h.2 (isNumber_starts numbersShow_isSpace hnumber tail)⟩
        · rw [hentry] at hend ⊢
          rw [← List.append_assoc]
          exact .halfXY hblank hgap hgap' (hid.imp_right And.left) hne ((ws_eof_iff heof).mp hend.2)

/-- **The reader follows the grammar.** -/
theorem readAvbSetting_iff {line : List Char} {e : Option AvbSetting} :
    readAvbSetting line = some e ↔ SettingLine line e := ⟨settingLine_of_read, SettingLine.read⟩

/-- a line has one entry at most -/
theorem SettingLine.unique {line : List Char} {e e' : Option AvbSetting} (h : SettingLine line e)
    (h' : SettingLine line e') : e = e' := Option.some.inj (h.read.symm.trans h'.read)

/-! ## what a load accepts -/

/-- the line is valid -/
def Valid (line : List Char) : Prop := ∃ e, SettingLine line e

def devicesOf (entries : List (Option AvbSetting)) : List AvbDeviceConfiguration :=
  entries.filterMap fun
    | some (.device config) => some config
    | _ => none

def halfXYOf (entries : List (Option AvbSetting)) : List String :=
  entries.filterMap fun
    | some (.halfXY id) => some id
    | _ => none

theorem readAvbLines_ok {lines : List (List Char)} {entries : List (Option AvbSetting)}
    (h : List.Forall₂ SettingLine lines entries) (lineNumber : Nat)
    (configs : List AvbDeviceConfiguration)
    (halfXYControllers : List String) :
    readAvbLines lines lineNumber configs halfXYControllers =
      .ok (configs ++ devicesOf entries, halfXYControllers ++ halfXYOf entries) := by
  induction h generalizing lineNumber configs halfXYControllers with
  | nil => simp [readAvbLines, devicesOf, halfXYOf]
  | @cons line e lines entries hline _ ih =>
    unfold readAvbLines
    rw [hline.read]
    rcases e with - | ⟨config⟩ | ⟨id⟩
    · exact ih _ _ _
    · simp only [ih, devicesOf, halfXYOf, List.filterMap_cons, List.append_assoc, List.singleton_append]
    · simp only [ih, devicesOf, halfXYOf, List.filterMap_cons, List.append_assoc, List.singleton_append]

/-- The number of the first line that is not valid ends the loop. -/
theorem readAvbLines_error {before : List (List Char)} {line : List Char}
    (hbefore : ∀ l ∈ before, Valid l)
    (hline : ¬Valid line) (after : List (List Char)) (lineNumber : Nat)
    (configs : List AvbDeviceConfiguration) (halfXYControllers : List String) :
    readAvbLines (before ++ line :: after) lineNumber configs halfXYControllers =
      .error (lineNumber + before.length + 1) := by
  induction before generalizing lineNumber configs halfXYControllers with
  | nil =>
    have hread : readAvbSetting line = none := by
      cases hread : readAvbSetting line with
      | none => rfl
      | some e => exact absurd ⟨e, settingLine_of_read hread⟩ hline
    rw [List.nil_append]
    unfold readAvbLines
    rw [hread]
    rfl
  | cons first before ih =>
    obtain ⟨e, he⟩ := hbefore first List.mem_cons_self
    have hlength : lineNumber + (first :: before).length + 1 = lineNumber + 1 + before.length + 1 := by
      rw [List.length_cons]
      omega
    rw [List.cons_append, hlength]
    unfold readAvbLines
    rw [he.read]
    have hrest := ih fun l hl => hbefore l (List.mem_cons_of_mem _ hl)
    rcases e with - | ⟨config⟩ | ⟨id⟩
    · exact hrest _ _ _
    · exact hrest _ _ _
    · exact hrest _ _ _

/-- each line has its entry, and each entry its line -/
theorem lines_entries {lines : List (List Char)} {entries : List (Option AvbSetting)}
    (h : List.Forall₂ SettingLine lines entries) :
    (∀ line ∈ lines, Valid line) ∧ ∀ e ∈ entries, ∃ line ∈ lines, SettingLine line e := by
  induction h with
  | nil => exact ⟨fun _ h => absurd h List.not_mem_nil, fun _ h => absurd h List.not_mem_nil⟩
  | @cons line e lines entries hline _ ih =>
    refine ⟨fun l hl => ?_, fun e' he' => ?_⟩
    · rcases List.mem_cons.mp hl with rfl | hl
      · exact ⟨e, hline⟩
      · exact ih.1 l hl
    · rcases List.mem_cons.mp he' with rfl | he'
      · exact ⟨line, List.mem_cons_self, hline⟩
      · obtain ⟨l, hl, hentry⟩ := ih.2 e' he'
        exact ⟨l, List.mem_cons_of_mem _ hl, hentry⟩

/-- every line is valid, or there is a first one that is not -/
theorem valid_or_first (lines : List (List Char)) :
    (∃ entries, List.Forall₂ SettingLine lines entries) ∨
      ∃ before line after, lines = before ++ line :: after ∧ (∀ l ∈ before, Valid l) ∧ ¬Valid line := by
  induction lines with
  | nil => exact .inl ⟨[], .nil⟩
  | cons line lines ih =>
    by_cases hline : Valid line
    · obtain ⟨e, he⟩ := hline
      rcases ih with ⟨entries, hentries⟩ | ⟨before, bad, after, rfl, hbefore, hbad⟩
      · exact .inl ⟨e :: entries, .cons he hentries⟩
      · refine .inr ⟨line :: before, bad, after, rfl, ?_, hbad⟩
        intro l hl
        rcases List.mem_cons.mp hl with rfl | hl
        · exact ⟨e, he⟩
        · exact hbefore l hl
    · exact .inr ⟨[], line, lines, rfl, fun _ h => absurd h List.not_mem_nil, hline⟩

section
variable {σ : Type} (manager : AvbManager σ) (path : String)

theorem loadAvbSettings_ok {text : List Char} {entries : List (Option AvbSetting)}
    (h : List.Forall₂ SettingLine (splitLines '\n' text) entries) (setup : σ) :
    loadAvbSettings manager path (.opened text false) setup =
      ⟨true, "", manager.setHalfXYOutputControllers (halfXYOf entries)
        (manager.setConfiguredDevices (devicesOf entries) setup)⟩ := by
  unfold loadAvbSettings
  simp only
  rw [readAvbLines_ok h]
  rfl

theorem loadAvbSettings_error {text : List Char} {before after : List (List Char)} {line : List Char}
    (h : splitLines '\n' text = before ++ line :: after) (hbefore : ∀ l ∈ before, Valid l)
    (hline : ¬Valid line) (setup : σ) :
    loadAvbSettings manager path (.opened text false) setup =
      ⟨false, "Invalid AVB setting on line " ++ toString (before.length + 1) ++ ".", setup⟩ := by
  unfold loadAvbSettings
  simp only
  rw [h, readAvbLines_error hbefore hline, Nat.zero_add]

/-- **What a load accepts, and what it leaves.**  It returns true exactly if every line is valid, and then
the lists are those of the file; otherwise nothing changes, and the error has the number of the first line
that is not valid. -/
theorem load_avb_settings (text : List Char) (setup : σ) :
    let lines := splitLines '\n' text
    let load := loadAvbSettings manager path (.opened text false) setup
    (load.ok = true ↔ ∀ line ∈ lines, Valid line) ∧
      (load.ok = true → ∃ entries, List.Forall₂ SettingLine lines entries ∧
        manager.configuredDevices load.setup = devicesOf entries ∧
        manager.halfXYOutputControllers load.setup = halfXYOf entries) ∧
      (load.ok = false → load.setup = setup ∧
        ∃ before line after, lines = before ++ line :: after ∧ (∀ l ∈ before, Valid l) ∧ ¬Valid line ∧
          load.error = "Invalid AVB setting on line " ++ toString (before.length + 1) ++ ".") := by
  intro lines load
  rcases valid_or_first lines with ⟨entries, hentries⟩ | ⟨before, line, after, hlines, hbefore, hline⟩
  · have hload : load = _ := loadAvbSettings_ok manager path hentries setup
    rw [hload]
    refine ⟨⟨fun _ => (lines_entries hentries).1, fun _ => rfl⟩, fun _ => ⟨entries, hentries, ?_, ?_⟩,
      fun h => ?_⟩
    · rw [manager.configuredDevices_setHalfXY, manager.configuredDevices_set]
    · rw [manager.halfXYOutputControllers_set]
    · cases h
  · have hload : load = _ := loadAvbSettings_error manager path hlines hbefore hline setup
    rw [hload]
    refine ⟨⟨fun h => ?_, fun h => ?_⟩, fun h => ?_,
      fun _ => ⟨rfl, before, line, after, hlines, hbefore, hline, rfl⟩⟩
    · cases h
    · refine absurd (h line ?_) hline
      rw [hlines]
      exact List.mem_append_right _ List.mem_cons_self
    · cases h

end
end LiberaLink
