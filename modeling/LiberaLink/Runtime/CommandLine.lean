import LiberaLink.Lib.Numeric
import LiberaLink.Sink.Options

/-!
# The command line

`parseOptions` goes through the arguments once and writes what they say into the options of a link; each
number is moved into its bounds where it is read.  `std::size_t` has 64 bits.

* `parseOptions`                 the loop over the arguments and what follows it;
* `given`                        the numbers that an argument vector gives for an option;
* `setNumber_ok`, `parseArguments_number`   each option holds the last number given for it;
* `parsed_options_saturated_iff` **when every number ends up saturated**.
-/

namespace LiberaLink
open Numeric

/-- the result of `parseOptions`; an error carries what is printed -/
inductive ParseResult where
  | ok
  | help
  | error (message : String)
  deriving DecidableEq

def parseUnsigned (text : String) : Option Nat :=
  match stoull text.toList with
  | none => none
  | some (raw, parsed) => if parsed ≠ text.toList.length then none else some raw

def parseKeyValue (text : String) : Option (String × String) :=
  let chars := text.toList
  let key := chars.takeWhile fun c => c ≠ '='
  let rest := chars.dropWhile fun c => c ≠ '='
  if rest = [] ∨ key = [] ∨ rest.tail = [] then none
  else some (.ofList key, .ofList rest.tail)

/-! ## the loop -/

/-- what a number does to the options; `static_cast<std::uint32_t>` keeps its lower 32 bits -/
def setNumber (arg : String) (raw : Nat) (options : LinkOptions) : Except String LinkOptions :=
  if arg = "--discovery-timeout-ms" then
    .ok { options with discoveryTimeoutMs := min raw (2 ^ 32 - 1) % 2 ^ 32 }
  else if arg = "--max-dacs" then .ok { options with maxDacs := raw }
  else if arg = "--slice-us" then .ok { options with sliceDurationUs := max raw 1000 % 2 ^ 32 }
  else if arg = "--max-queue-points" then .ok { options with maxQueuedPoints := max raw 1000 }
  else if arg = "--latency-ms" then .ok { options with latencyMs := clamp raw 0 10000 % 2 ^ 32 }
  else if arg = "--max-latency-ms" then .ok { options with maxLatencyMs := clamp raw 0 30000 % 2 ^ 32 }
  else .error ("Unknown option: " ++ arg)

/-- an argument that takes a value -/
def parseValue (arg value : String) (options : LinkOptions) : Except String LinkOptions :=
  if arg = "--virtual-controller" then .ok { options with virtualControllerHostId := value }
  else if arg = "--disable-controller-type" then
    .ok { options with disabledControllerTypes := insert value options.disabledControllerTypes }
  else if arg = "--enable-controller-type" then
    .ok { options with disabledControllerTypes := options.disabledControllerTypes.erase value }
  else if arg = "--virtual-controller-opt" then
    match parseKeyValue value with
    | none => .error ("Invalid virtual controller host option for " ++ arg ++
        ": expected key=value, got " ++ value)
    | some (key, value) => .ok { options with
        virtualControllerHostOptions := options.virtualControllerHostOptions.insert key value }
  else match parseUnsigned value with
    | none => .error ("Invalid numeric value for " ++ arg ++ ": " ++ value)
    | some raw => setNumber arg raw options

/-- The loop of `parseOptions` over the arguments. -/
def parseArguments : List String → LinkOptions → ParseResult × LinkOptions
  | [], options => (.ok, options)
  | arg :: rest, options =>
    if arg = "--help" then (.help, options)
    else if arg = "--no-auto-latency" then parseArguments rest { options with autoLatency := false }
    else match rest with
      | [] => (.error ("Missing value for " ++ arg), options)
      | value :: rest =>
        match parseValue arg value options with
        | .error message => (.error message, options)
        | .ok options => parseArguments rest options

def parseOptions (reg : Registry) (args : List String) (options : LinkOptions) :
    ParseResult × LinkOptions :=
  match parseArguments args options with
  | (.ok, options) =>
    let options := { options with
      maxLatencyMs :=
        if options.maxLatencyMs < options.latencyMs then options.latencyMs else options.maxLatencyMs }
    if options.virtualControllerHostId ≠ "" ∧
        (findVirtualControllerHost reg options.virtualControllerHostId).isNone then
      (.error ("Unknown virtual controller host: " ++ options.virtualControllerHostId), options)
    else (.ok, options)
  | other => other

/-! ## the options that are numbers -/

inductive NumberOption where
  | discoveryTimeoutMs
  | maxDacs
  | sliceDurationUs
  | maxQueuedPoints
  | latencyMs
  | maxLatencyMs
  deriving DecidableEq

namespace NumberOption

def name : NumberOption → String
  | discoveryTimeoutMs => "--discovery-timeout-ms"
  | maxDacs => "--max-dacs"
  | sliceDurationUs => "--slice-us"
  | maxQueuedPoints => "--max-queue-points"
  | latencyMs => "--latency-ms"
  | maxLatencyMs => "--max-latency-ms"

def field : NumberOption → LinkOptions → Nat
  | discoveryTimeoutMs => fun o => o.discoveryTimeoutMs
  | maxDacs => fun o => o.maxDacs
  | sliceDurationUs => fun o => o.sliceDurationUs
  | maxQueuedPoints => fun o => o.maxQueuedPoints
  | latencyMs => fun o => o.latencyMs
  | maxLatencyMs => fun o => o.maxLatencyMs

/-- what the loop makes of a number -/
def convert : NumberOption → Nat → Nat
  | discoveryTimeoutMs => fun raw => min raw (2 ^ 32 - 1) % 2 ^ 32
  | maxDacs => fun raw => raw
  | sliceDurationUs => fun raw => max raw 1000 % 2 ^ 32
  | maxQueuedPoints => fun raw => max raw 1000
  | latencyMs => fun raw => clamp raw 0 10000 % 2 ^ 32
  | maxLatencyMs => fun raw => clamp raw 0 30000 % 2 ^ 32

theorem name_injective {k k' : NumberOption} (h : k.name = k'.name) : k = k' := by
  revert h
  cases k <;> cases k' <;> decide

end NumberOption

/-- **A number** is set in one option and changes no other one. -/
theorem setNumber_ok {arg : String} {raw : Nat} {options options' : LinkOptions}
    (h : setNumber arg raw options = .ok options') : ∃ k : NumberOption, arg = k.name ∧
      ∀ k' : NumberOption, k'.field options' = if k' = k then k'.convert raw else k'.field options := by
  unfold setNumber at h
  split at h
  · obtain rfl := Except.ok.inj h
    exact ⟨.discoveryTimeoutMs, ‹_›, fun k' => by cases k' <;> rfl⟩
  split at h
  · obtain rfl := Except.ok.inj h
    exact ⟨.maxDacs, ‹_›, fun k' => by cases k' <;> rfl⟩
  split at h
  · obtain rfl := Except.ok.inj h
    exact ⟨.sliceDurationUs, ‹_›, fun k' => by cases k' <;> rfl⟩
  split at h
  · obtain rfl := Except.ok.inj h
    exact ⟨.maxQueuedPoints, ‹_›, fun k' => by cases k' <;> rfl⟩
  split at h
  · obtain rfl := Except.ok.inj h
    exact ⟨.latencyMs, ‹_›, fun k' => by cases k' <;> rfl⟩
  split at h
  · obtain rfl := Except.ok.inj h
    exact ⟨.maxLatencyMs, ‹_›, fun k' => by cases k' <;> rfl⟩
  · cases h

/-- **An argument with a value** is an option of text, which changes no number, or a number. -/
theorem parseValue_ok {arg value : String} {options options' : LinkOptions}
    (h : parseValue arg value options = .ok options') :
    (∀ k : NumberOption, arg ≠ k.name ∧ k.field options' = k.field options) ∨
      ∃ raw, parseUnsigned value = some raw ∧ setNumber arg raw options = .ok options' := by
  have htext : ∀ k : NumberOption, k.name ≠ "--virtual-controller" ∧
      k.name ≠ "--disable-controller-type" ∧ k.name ≠ "--enable-controller-type" ∧
      k.name ≠ "--virtual-controller-opt" := by
    intro k
    cases k <;> decide
  unfold parseValue at h
  split at h
  · obtain rfl := Except.ok.inj h
    rename_i harg
    exact .inl fun k => ⟨fun hk => (htext k).1 (hk.symm.trans harg), by cases k <;> rfl⟩
  split at h
  · obtain rfl := Except.ok.inj h
    rename_i harg
    exact .inl fun k => ⟨fun hk => (htext k).2.1 (hk.symm.trans harg), by cases k <;> rfl⟩
  split at h
  · obtain rfl := Except.ok.inj h
    rename_i harg
    exact .inl fun k => ⟨fun hk => (htext k).2.2.1 (hk.symm.trans harg), by cases k <;> rfl⟩
  split at h
  · rename_i harg
    split at h
    · cases h
    · obtain rfl := Except.ok.inj h
      exact .inl fun k => ⟨fun hk => (htext k).2.2.2 (hk.symm.trans harg), by cases k <;> rfl⟩
  · split at h
    · cases h
    · rename_i raw hraw
      exact .inr ⟨raw, hraw, h⟩

/-! ## the numbers that are given -/

/-- The numbers that the arguments give for an option, in order. -/
def given (name : String) : List String → List Nat
  | [] => []
  | arg :: rest =>
    if arg = "--no-auto-latency" then given name rest
    else match rest with
      | [] => []
      | value :: rest =>
        if arg = name then (parseUnsigned value).toList ++ given name rest else given name rest

/-- what an option holds after these numbers -/
def NumberOption.after (k : NumberOption) (numbers : List Nat) (options : LinkOptions) : Nat :=
  (numbers.getLast?.map k.convert).getD (k.field options)

theorem NumberOption.after_cons (k : NumberOption) (raw : Nat) (numbers : List Nat)
    {options options' : LinkOptions} (h : k.field options' = k.convert raw) :
    k.after (raw :: numbers) options = k.after numbers options' := by
  unfold NumberOption.after
  cases numbers with
  | nil =>
    show k.convert raw = k.field options'
    exact h.symm
  | cons n numbers =>
    rw [List.getLast?_cons_cons]
    cases hlast : (n :: numbers).getLast? with
    | none => simp at hlast
    | some last => rfl

theorem NumberOption.after_congr (k : NumberOption) (numbers : List Nat)
    {options options' : LinkOptions} (h : k.field options' = k.field options) :
    k.after numbers options' = k.after numbers options := by
  unfold NumberOption.after
  rw [h]

theorem NumberOption.after_last (k : NumberOption) {numbers : List Nat} {raw : Nat}
    (h : numbers.getLast? = some raw) (options : LinkOptions) :
    k.after numbers options = k.convert raw := by
  unfold NumberOption.after
  rw [h]
  rfl

/-- what holds of the option before the loop and of every number that is set -/
theorem NumberOption.after_rule (k : NumberOption) {P : Nat → Prop} {options : LinkOptions}
    (numbers : List Nat) (h : P (k.field options)) (hset : ∀ raw ∈ numbers, P (k.convert raw)) :
    P (k.after numbers options) := by
  cases hlast : numbers.getLast? with
  | none =>
    unfold NumberOption.after
    rw [hlast]
    exact h
  | some raw =>
    rw [k.after_last hlast]
    exact hset raw (List.mem_of_getLast? hlast)

/-- **The last number given for an option** is what the loop leaves in it. -/
theorem parseArguments_number (k : NumberOption) {args : List String} {options options' : LinkOptions}
    (h : parseArguments args options = (.ok, options')) :
    k.field options' = k.after (given k.name args) options := by
  induction args, options using parseArguments.induct with
  | case1 options =>
    obtain rfl : options = options' := congrArg Prod.snd h
    rfl
  | case2 rest options =>
    unfold parseArguments at h
    rw [if_pos rfl] at h
    cases h
  | case3 rest options hhelp ih =>
    unfold parseArguments at h
    rw [if_neg hhelp, if_pos rfl] at h
    unfold given
    rw [if_pos rfl, ih h]
    exact k.after_congr _ (by cases k <;> rfl)
  | case4 options arg hhelp hswitch =>
    rw [parseArguments, if_neg hhelp, if_neg hswitch] at h
    cases h
  | case5 options arg hhelp hswitch value rest message herror =>
    rw [parseArguments, if_neg hhelp, if_neg hswitch] at h
    simp only [herror] at h
    cases h
  | case6 options arg hhelp hswitch value rest next hok ih =>
    rw [parseArguments, if_neg hhelp, if_neg hswitch] at h
    simp only [hok] at h
    rw [given, if_neg hswitch, ih h]
    rcases parseValue_ok hok with htext | ⟨raw, hraw, hset⟩
    · rw [if_neg (htext k).1]
      exact k.after_congr _ (htext k).2
    · obtain ⟨k', rfl, hfields⟩ := setNumber_ok hset
      by_cases hk : k = k'
      · subst hk
        rw [if_pos rfl, hraw]
        exact (k.after_cons raw _ ((hfields k).trans (if_pos rfl))).symm
      · rw [if_neg fun hname => hk (NumberOption.name_injective hname).symm]
        exact k.after_congr _ ((hfields k).trans (if_neg hk))

/-! ## saturation -/

/-- The options are within their bounds, and each number that was given is the last one given, moved into
its type and these bounds; the largest latency is also raised to the latency. -/
structure Saturated (args : List String) (options : LinkOptions) : Prop where
  sliceDurationUs_ge : 1000 ≤ options.sliceDurationUs
  maxQueuedPoints_ge : 1000 ≤ options.maxQueuedPoints
  latencyMs_le : options.latencyMs ≤ 10000
  latencyMs_le_max : options.latencyMs ≤ options.maxLatencyMs
  maxLatencyMs_le : options.maxLatencyMs ≤ 30000
  discoveryTimeoutMs : ∀ raw, (given "--discovery-timeout-ms" args).getLast? = some raw →
    options.discoveryTimeoutMs = min raw (2 ^ 32 - 1)
  sliceDurationUs : ∀ raw, (given "--slice-us" args).getLast? = some raw →
    options.sliceDurationUs = min (max raw 1000) (2 ^ 32 - 1)
  maxQueuedPoints : ∀ raw, (given "--max-queue-points" args).getLast? = some raw →
    options.maxQueuedPoints = min (max raw 1000) (2 ^ 64 - 1)
  latencyMs : ∀ raw, (given "--latency-ms" args).getLast? = some raw →
    options.latencyMs = min raw 10000
  maxLatencyMs : ∀ raw, (given "--max-latency-ms" args).getLast? = some raw →
    options.maxLatencyMs = max (min raw 30000) options.latencyMs

theorem stoull_lt {text : List Char} {n parsed : Nat} (h : stoull text = some (n, parsed)) :
    n < 2 ^ 64 := by
  unfold stoull at h
  extract_lets unspaced negative unsigned digits value at h
  split at h
  · cases h
  · rename_i hfits
    have hn := (Prod.mk.inj (Option.some.inj h)).1
    have hvalue := not_le.mp (not_or.mp hfits).2
    split at hn
    · rw [← hn]
      exact Nat.mod_lt _ (by decide)
    · rw [← hn]
      exact hvalue

theorem parseUnsigned_lt {text : String} {n : Nat} (h : parseUnsigned text = some n) : n < 2 ^ 64 := by
  unfold parseUnsigned at h
  split at h
  · cases h
  · rename_i raw parsed hread
    split at h
    · cases h
    · rw [← Option.some.inj h]
      exact stoull_lt hread

/-- what the arguments give is read from 64 bits -/
theorem given_lt {name : String} {args : List String} {raw : Nat} (h : raw ∈ given name args) :
    raw < 2 ^ 64 := by
  induction args using given.induct name with
  | case1 => cases h
  | case2 rest ih =>
    unfold given at h
    rw [if_pos rfl] at h
    exact ih h
  | case3 arg hswitch =>
    rw [given, if_neg hswitch] at h
    cases h
  | case4 value rest hswitch ih =>
    rw [given, if_neg hswitch, if_pos rfl] at h
    rcases List.mem_append.mp h with hnew | hrest
    · exact parseUnsigned_lt (Option.mem_toList.mp hnew)
    · exact ih hrest
  | case5 arg hswitch value rest hname ih =>
    rw [given, if_neg hswitch, if_neg hname] at h
    exact ih h

theorem clamp_zero (raw hi : Nat) : clamp raw 0 hi = min raw hi := by
  unfold clamp
  rw [if_neg (Nat.not_lt_zero raw)]
  split <;> omega

/-- what `parseOptions` makes of the options the loop leaves -/
theorem parseOptions_ok {reg : Registry} {args : List String} {options options' : LinkOptions}
    (h : parseOptions reg args options = (.ok, options')) : ∃ last : LinkOptions,
      parseArguments args options = (.ok, last) ∧
      options' = { last with maxLatencyMs := max last.maxLatencyMs last.latencyMs } := by
  unfold parseOptions at h
  split at h
  · rename_i last hloop
    refine ⟨last, hloop, ?_⟩
    have hmax : (if last.maxLatencyMs < last.latencyMs then last.latencyMs else last.maxLatencyMs) =
        max last.maxLatencyMs last.latencyMs := by
      split <;> omega
    rw [hmax] at h
    simp only at h
    split at h
    · cases h
    · exact (Prod.mk.inj h).2.symm
  · rename_i other hother
    exact absurd h (hother options')

/-- **The options that were parsed are saturated** exactly if the slice duration given last survives the
conversion to 32 bits, which comes after the bound it has to keep. -/
theorem parsed_options_saturated_iff (reg : Registry) (args : List String) {options : LinkOptions}
    (h : parseOptions reg args {} = (.ok, options)) :
    Saturated args options ↔ ∀ raw, (given "--slice-us" args).getLast? = some raw →
      raw < 2 ^ 32 ∨ raw % 2 ^ 32 = 2 ^ 32 - 1 := by
  obtain ⟨last, hloop, rfl⟩ := parseOptions_ok h
  have hnumber : ∀ k : NumberOption, k.field last = k.after (given k.name args) {} :=
    fun k => parseArguments_number k hloop
  have hslice : ∀ raw, (given "--slice-us" args).getLast? = some raw →
      last.sliceDurationUs = max raw 1000 % 2 ^ 32 := fun raw hlast =>
    (hnumber .sliceDurationUs).trans (NumberOption.sliceDurationUs.after_last hlast {})
  constructor
  · intro hsaturated raw hlast
    have hwant := hsaturated.sliceDurationUs raw hlast
    have hgot := hslice raw hlast
    change last.sliceDurationUs = _ at hwant
    omega
  · intro hfits
    have hlatency : last.latencyMs ≤ 10000 := by
      rw [show last.latencyMs = _ from hnumber .latencyMs]
      refine NumberOption.latencyMs.after_rule (P := (· ≤ 10000)) _
        (show 50 ≤ 10000 by omega) fun raw _ => ?_
      show clamp raw 0 10000 % 2 ^ 32 ≤ 10000
      rw [clamp_zero]
      omega
    have hmax : last.maxLatencyMs ≤ 30000 := by
      rw [show last.maxLatencyMs = _ from hnumber .maxLatencyMs]
      refine NumberOption.maxLatencyMs.after_rule (P := (· ≤ 30000)) _
        (show 1500 ≤ 30000 by omega) fun raw _ => ?_
      show clamp raw 0 30000 % 2 ^ 32 ≤ 30000
      rw [clamp_zero]
      omega
    refine ⟨?_, ?_, hlatency, Nat.le_max_right _ _, ?_, ?_, ?_, ?_, ?_, ?_⟩
    · show 1000 ≤ last.sliceDurationUs
      cases hlast : (given "--slice-us" args).getLast? with
      | none =>
        rw [show last.sliceDurationUs = _ from hnumber .sliceDurationUs]
        unfold NumberOption.after
        rw [show given NumberOption.sliceDurationUs.name args = given "--slice-us" args from rfl, hlast]
        show 1000 ≤ 15000
        omega
      | some raw =>
        have hgot := hslice raw hlast
        have hfit := hfits raw hlast
        omega
    · show 1000 ≤ last.maxQueuedPoints
      rw [show last.maxQueuedPoints = _ from hnumber .maxQueuedPoints]
      exact NumberOption.maxQueuedPoints.after_rule (P := (1000 ≤ ·)) _ (show 1000 ≤ 300000 by omega)
        fun raw _ => Nat.le_max_right _ _
    · show max last.maxLatencyMs last.latencyMs ≤ 30000
      omega
    · intro raw hlast
      have hgot : last.discoveryTimeoutMs = min raw (2 ^ 32 - 1) % 2 ^ 32 :=
        (hnumber .discoveryTimeoutMs).trans (NumberOption.discoveryTimeoutMs.after_last hlast {})
      show last.discoveryTimeoutMs = _
      omega
    · intro raw hlast
      have hgot := hslice raw hlast
      have hfit := hfits raw hlast
      show last.sliceDurationUs = _
      omega
    · intro raw hlast
      have hgot : last.maxQueuedPoints = max raw 1000 :=
        (hnumber .maxQueuedPoints).trans (NumberOption.maxQueuedPoints.after_last hlast {})
      have hlt := given_lt (List.mem_of_getLast? hlast)
      show last.maxQueuedPoints = _
      omega
    · intro raw hlast
      have hgot : last.latencyMs = clamp raw 0 10000 % 2 ^ 32 :=
        (hnumber .latencyMs).trans (NumberOption.latencyMs.after_last hlast {})
      rw [clamp_zero] at hgot
      show last.latencyMs = _
      omega
    · intro raw hlast
      have hgot : last.maxLatencyMs = clamp raw 0 30000 % 2 ^ 32 :=
        (hnumber .maxLatencyMs).trans (NumberOption.maxLatencyMs.after_last hlast {})
      rw [clamp_zero] at hgot
      show max last.maxLatencyMs last.latencyMs = max (min raw 30000) last.latencyMs
      omega

/-- a number given twice, and a latency above the largest one -/
theorem parsed_options_saturated_twice :
    let args := ["--slice-us", "5", "--latency-ms", "99999", "--slice-us", "20000",
      "--max-latency-ms", "1"]
    Saturated args (parseOptions .empty args {}).2 :=
  (parsed_options_saturated_iff .empty _ (Prod.ext (by decide +kernel) rfl)).mpr fun raw hlast => by
    have hgiven : (given "--slice-us"
        ["--slice-us", "5", "--latency-ms", "99999", "--slice-us", "20000", "--max-latency-ms",
          "1"]).getLast? =
          some 20000 := by decide +kernel
    obtain rfl := Option.some.inj (hlast.symm.trans hgiven)
    exact .inl (by decide)

/-- A slice duration of `2 ^ 32` becomes zero. -/
theorem slice_duration_wraps :
    let args := ["--slice-us", "4294967296"]
    (parseOptions .empty args {}).1 = .ok ∧ (parseOptions .empty args {}).2.sliceDurationUs = 0 ∧
      ¬ Saturated args (parseOptions .empty args {}).2 := by
  intro args
  have hzero : (parseOptions .empty args {}).2.sliceDurationUs = 0 := by decide +kernel
  refine ⟨by decide +kernel, hzero, fun hsaturated => ?_⟩
  have hge := hsaturated.sliceDurationUs_ge
  rw [hzero] at hge
  exact absurd hge (by decide)

end LiberaLink
