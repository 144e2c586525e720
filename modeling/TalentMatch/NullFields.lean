import TalentMatch.Explained

/-!
# Null fields

An engine writes an alternative that it does not use as `null` or an empty list, or
leaves it out. `_extract_cv_signal` chooses between `decision` and `final_decision` by
their truth values. Between `overall_score` and `score`, and between `must_haves` and
`must_have_results`, it chooses by the presence of the first key.

Results:
1. `extractCvSignal_removeUnset`: removing null and empty fields can change two values
   only, the raw score and the must-haves.
2. `nullMeansAbsent_iff_hidesNothing`: it leaves the signal as it is exactly when these
   two read alike with and without them.
3. `aggregateCvScoring_of_absent`: then it leaves the aggregate as it is.
-/

namespace TalentMatch

open MustHavesLemmas MalformedLemmas ExplainedLemmas

variable {φ : Type}

/-! ## 1. Fields without a value -/

/-- The keys that `_extract_cv_signal` reads in an output. -/
def recognisedKeys : List String :=
  ["overall_score", "score", "composite_score", "decision", "final_decision", "eligibility",
    "status", "must_haves", "must_have_results"]

/-- `null` or an empty list. -/
def isUnset : Json φ → Bool
  | .null => true
  | .arr items => items.isEmpty
  | _ => false

/-- Recognised keys that the output has, without a value. -/
def UnsetKeys (output : Fields φ) (keys : List String) : Prop :=
  ∀ key ∈ keys, key ∈ recognisedKeys ∧
    ∃ value, Dict.get? output key = some value ∧ isUnset value = true

/-- `composite_score.get("value")`. -/
def compositeValue (output : Fields φ) : Json φ := valueAt (objectAt output "composite_score") "value"

/-- A score, or the composite one where it is null. -/
def orComposite (output : Fields φ) (score : Json φ) : Json φ :=
  match score with
  | .null => compositeValue output
  | v => v

/-- The second output leaves out fields that the first has without a value. -/
def OmitsUnset (output output' : Fields φ) : Prop :=
  ∃ keys, UnsetKeys output keys ∧ output' = Dict.remove keys output

section Conditions
variable (num : Numerics φ) (str : Json φ → String)

/-- Removing fields without a value does not change the signal. -/
def NullMeansAbsent (output : Fields φ) : Prop :=
  ∀ keys, UnsetKeys output keys →
    extractCvSignal num str (Dict.remove keys output) = extractCvSignal num str output

/-- Only a score could say something. -/
def OnlyScore (output : Fields φ) : Prop :=
  (mustHaves num output).truthy num.isZero = false ∧ decisionRaw num str output = "" ∧
    textOf num str (valueAt output "status") = ""

/-- Two raw scores read alike, and say something alike where only they can. -/
def SameScore (output : Fields φ) (score score' : Json φ) : Prop :=
  readScore num (effectiveScore num score (textOf num str (valueAt output "status"))) =
      readScore num (effectiveScore num score' (textOf num str (valueAt output "status"))) ∧
    (OnlyScore num str output → (score = .null ↔ score' = .null))

/-- The raw score and the must-haves read alike with and without the fields that have no
value. -/
structure HidesNothing (output : Fields φ) : Prop where
  overallScore : MustHavesReadable num output →
    (∃ value, Dict.get? output "overall_score" = some value ∧ isUnset value = true) →
      SameScore num str output (rawScore output) (orComposite output (valueAt output "score"))
  score : MustHavesReadable num output →
    (∀ value, Dict.get? output "overall_score" = some value → isUnset value = true) →
      isUnset (valueAt output "score") = true →
        SameScore num str output (rawScore output) (compositeValue output)
  mustHaves : (∃ value, Dict.get? output "must_haves" = some value ∧ isUnset value = true) →
    (valueAt output "must_have_results").truthy num.isZero = true →
      ListReadable num (valueAt output "must_have_results") ∧ ¬ SaysNothing num str output ∧
        (ScoreConverts num (rawScore output) →
          allMet num (valueAt output "must_have_results") =
            mustAllMet num (mustHaves num output) (decisionRaw num str output))

end Conditions

/-! ## 2. What removing a field changes -/

namespace NullFieldsLemmas

variable {num : Numerics φ} {str : Json φ → String} {output : Fields φ} {keys : List String}

theorem truthy_of_isUnset {value : Json φ} (h : isUnset value = true) :
    value.truthy num.isZero = false := by
  cases value with
  | null => rfl
  | arr items => simpa [isUnset, Json.truthy] using h
  | bool | int | float | str | obj => cases h

/-- A removed value counts as null. -/
theorem valueAt_remove (h : UnsetKeys output keys) (key : String) :
    valueAt (Dict.remove keys output) key = valueAt output key ∨
      (key ∈ keys ∧ isUnset (valueAt output key) = true ∧
        valueAt (Dict.remove keys output) key = .null) := by
  unfold valueAt
  rw [Dict.get?_remove]
  split
  · next hkey =>
    obtain ⟨-, value, hvalue, hunset⟩ := h key hkey
    exact .inr ⟨hkey, by rw [hvalue]; exact hunset, rfl⟩
  · exact .inl rfl

theorem truthy_remove (h : UnsetKeys output keys) (key : String) :
    (valueAt (Dict.remove keys output) key).truthy num.isZero =
      (valueAt output key).truthy num.isZero := by
  rcases valueAt_remove h key with heq | ⟨-, hunset, hnull⟩
  · rw [heq]
  · rw [hnull, truthy_of_isUnset hunset]
    rfl

theorem textOf_of_falsy {value : Json φ} (h : value.truthy num.isZero = false) :
    textOf num str value = "" := by
  unfold textOf
  rw [if_neg (by rw [h]; exact Bool.false_ne_true)]

theorem textOf_remove (h : UnsetKeys output keys) (key : String) :
    textOf num str (valueAt (Dict.remove keys output) key) = textOf num str (valueAt output key) := by
  rcases valueAt_remove h key with heq | ⟨-, hunset, hnull⟩
  · rw [heq]
  · rw [hnull, textOf_of_falsy (truthy_of_isUnset hunset), textOf_of_falsy rfl]

/-- An object is never removed. -/
theorem objectAt_remove (h : UnsetKeys output keys) (key : String) :
    objectAt (Dict.remove keys output) key = objectAt output key := by
  unfold objectAt
  rw [Dict.get?_remove]
  by_cases hkey : key ∈ keys
  · obtain ⟨-, value, hvalue, hunset⟩ := h key hkey
    rw [if_pos hkey, hvalue]
    cases value with
    | obj fields => cases hunset
    | null | bool | int | float | str | arr => rfl
  · rw [if_neg hkey]

theorem decisionRaw_remove (h : UnsetKeys output keys) :
    decisionRaw num str (Dict.remove keys output) = decisionRaw num str output := by
  have hor : textOf num str (orValue num (valueAt (Dict.remove keys output) "decision")
      (valueAt (Dict.remove keys output) "final_decision")) =
        textOf num str (orValue num (valueAt output "decision")
          (valueAt output "final_decision")) := by
    unfold orValue
    rw [truthy_remove h]
    split
    · exact textOf_remove h _
    · exact textOf_remove h _
  unfold decisionRaw
  rw [hor, objectAt_remove h]

theorem checklistOr_remove (h : UnsetKeys output keys) (first : Json φ) :
    checklistOr (Dict.remove keys output) first = checklistOr output first := by
  unfold checklistOr
  rw [objectAt_remove h]

/-- The must-have results, or an empty list. -/
def resultsOr (num : Numerics φ) (output : Fields φ) : Json φ :=
  orValue num ((Dict.get? output "must_have_results").getD (.arr [])) (.arr [])

theorem resultsOr_eq (num : Numerics φ) (output : Fields φ) :
    resultsOr num output = if (valueAt output "must_have_results").truthy num.isZero then
      valueAt output "must_have_results" else .arr [] := by
  unfold resultsOr orValue valueAt
  cases Dict.get? output "must_have_results" with
  | none => rfl
  | some value => rfl

theorem resultsOr_remove (h : UnsetKeys output keys) :
    resultsOr num (Dict.remove keys output) = resultsOr num output := by
  rw [resultsOr_eq, resultsOr_eq, truthy_remove h]
  rcases valueAt_remove h "must_have_results" with heq | ⟨-, hunset, -⟩
  · rw [heq]
  · rw [truthy_of_isUnset hunset]
    rfl

/-- Without `must_haves`, the must-have results are read. -/
theorem firstMustHaves_remove (h : UnsetKeys output keys) :
    firstMustHaves num (Dict.remove keys output) =
      if "must_haves" ∈ keys then resultsOr num output else firstMustHaves num output := by
  unfold firstMustHaves
  rw [← resultsOr, resultsOr_remove h, Dict.get?_remove]
  by_cases hkey : "must_haves" ∈ keys
  · rw [if_pos hkey, if_pos hkey]
  · rw [if_neg hkey, if_neg hkey, ← resultsOr]

/-- The score before the composite one is asked for. -/
def scoreField (output : Fields φ) : Json φ :=
  match Dict.get? output "overall_score" with
  | some v => v
  | none => valueAt output "score"

theorem rawScore_eq (output : Fields φ) : rawScore output = orComposite output (scoreField output) := rfl

theorem orComposite_remove (h : UnsetKeys output keys) (score : Json φ) :
    orComposite (Dict.remove keys output) score = orComposite output score := by
  unfold orComposite compositeValue
  rw [objectAt_remove h]

/-- The raw score after fields without a value were removed. -/
theorem rawScore_remove (h : UnsetKeys output keys) :
    rawScore (Dict.remove keys output) =
      if "overall_score" ∈ keys ∨ Dict.get? output "overall_score" = none then
        orComposite output (if "score" ∈ keys then .null else valueAt output "score")
      else rawScore output := by
  have hscore : valueAt (Dict.remove keys output) "score" =
      if "score" ∈ keys then .null else valueAt output "score" := by
    unfold valueAt
    rw [Dict.get?_remove]
    split
    · rfl
    · rfl
  rw [rawScore_eq, orComposite_remove h, scoreField, Dict.get?_remove, hscore]
  generalize (if "score" ∈ keys then Json.null else valueAt output "score") = fallback
  by_cases hkey : "overall_score" ∈ keys
  · rw [if_pos hkey, if_pos (.inl hkey)]
  · rw [if_neg hkey]
    cases hget : Dict.get? output "overall_score" with
    | none => rw [if_pos (.inr rfl)]
    | some value => rw [if_neg (by simp [hkey]), rawScore_eq, scoreField, hget]

/-- The signal of an output, once the raw score and the must-haves are known. -/
def signalWith (num : Numerics φ) (str : Json φ → String) (output : Fields φ)
    (score must : Json φ) : Except AggregateError (Option (CvSignal φ)) :=
  (mustAllMet num must (decisionRaw num str output)).bind fun met =>
    if isBlank num (effectiveScore num score (textOf num str (valueAt output "status"))) must
        (decisionRaw num str output) (textOf num str (valueAt output "status")) then .ok none
    else
      (readScore num
        (effectiveScore num score (textOf num str (valueAt output "status")))).map
          fun score => some (signalOf num str output met score)

theorem extractCvSignal_eq_signalWith (output : Fields φ) :
    extractCvSignal num str output =
      signalWith num str output (rawScore output) (mustHaves num output) := by
  unfold signalWith
  cases hmet : mustAllMet num (mustHaves num output) (decisionRaw num str output) with
  | error e =>
    simp only [extractCvSignal, hmet]
    rfl
  | ok met => exact extractCvSignal_of_met hmet

theorem signalWith_remove (h : UnsetKeys output keys) (score must : Json φ) :
    signalWith num str (Dict.remove keys output) score must = signalWith num str output score must := by
  unfold signalWith signalOf
  rw [decisionRaw_remove h, textOf_remove h]

/-- Must-haves that count as none are all alike. -/
theorem signalWith_of_falsy {must must' : Json φ} (h : must.truthy num.isZero = false)
    (h' : must'.truthy num.isZero = false) (score : Json φ) :
    signalWith num str output score must = signalWith num str output score must' := by
  simp only [signalWith, mustAllMet, isBlank, h, h', Bool.false_eq_true, if_false]

theorem map_signalOf_inj {x y : Except AggregateError (Option φ)} {met met' : Bool} :
    (x.map fun score => some (signalOf num str output met score)) =
        (y.map fun score => some (signalOf num str output met' score)) ↔
      x = y ∧ ((∃ score, x = .ok score) → met = met') := by
  cases x with
  | error e =>
    cases y with
    | error e' => simp [Except.map]
    | ok score' => simp [Except.map]
  | ok score =>
    cases y with
    | error e' => simp [Except.map]
    | ok score' =>
      simp only [Except.map, Except.ok.injEq, Option.some.injEq, signalOf, CvSignal.mk.injEq]
      constructor
      · rintro ⟨rfl, rfl, -⟩
        exact ⟨rfl, fun _ => rfl⟩
      · rintro ⟨rfl, hmet⟩
        obtain rfl := hmet ⟨score, rfl⟩
        exact ⟨rfl, rfl, rfl⟩

theorem readable_iff (str : Json φ → String) (output : Fields φ) :
    MustHavesReadable num output ↔
      ∃ met, mustAllMet num (mustHaves num output) (decisionRaw num str output) = .ok met := by
  rw [mustAllMet_returns_iff, mustHaves_readable_iff]

theorem blank_iff {score : Json φ} :
    isBlank num (effectiveScore num score (textOf num str (valueAt output "status")))
        (mustHaves num output) (decisionRaw num str output)
        (textOf num str (valueAt output "status")) = true ↔
      score = .null ∧ OnlyScore num str output :=
  isBlank_effective_iff

/-- The signal with known must-haves, by the raw score. -/
theorem signalWith_of_met {met : Bool}
    (h : mustAllMet num (mustHaves num output) (decisionRaw num str output) = .ok met)
    (score : Json φ) :
    (score = .null ∧ OnlyScore num str output ∧
        signalWith num str output score (mustHaves num output) = .ok none) ∨
      (¬ (score = .null ∧ OnlyScore num str output) ∧
        signalWith num str output score (mustHaves num output) =
          (readScore num
            (effectiveScore num score (textOf num str (valueAt output "status")))).map
              fun score => some (signalOf num str output met score)) := by
  unfold signalWith
  rw [h]
  by_cases hblank : score = .null ∧ OnlyScore num str output
  · exact .inl ⟨hblank.1, hblank.2, if_pos (blank_iff.mpr hblank)⟩
  · exact .inr ⟨hblank, if_neg fun htrue => hblank (blank_iff.mp htrue)⟩

theorem map_signalOf_ne_none {x : Except AggregateError (Option φ)} {met : Bool} :
    (x.map fun score => some (signalOf num str output met score)) ≠ .ok none := by
  cases x with
  | error e => exact fun h => by cases h
  | ok score => exact fun h => by cases h

/-- Two raw scores give the same signal when they read alike. -/
theorem signalWith_score_iff (score score' : Json φ) :
    signalWith num str output score (mustHaves num output) =
        signalWith num str output score' (mustHaves num output) ↔
      (MustHavesReadable num output → SameScore num str output score score') := by
  rw [readable_iff str]
  cases hmet : mustAllMet num (mustHaves num output) (decisionRaw num str output) with
  | error e => simp [signalWith, hmet, Except.bind]
  | ok met =>
    have hreads : (∃ met', (Except.ok met : Except AggregateError Bool) = .ok met') := ⟨met, rfl⟩
    rw [imp_iff_right hreads, SameScore]
    rcases signalWith_of_met hmet score with ⟨rfl, honly, heq⟩ | ⟨hnot, heq⟩
    · rcases signalWith_of_met hmet score' with ⟨rfl, -, -⟩ | ⟨hnot', heq'⟩
      · exact ⟨fun _ => ⟨rfl, fun _ => Iff.rfl⟩, fun _ => rfl⟩
      · rw [heq, heq']
        constructor
        · exact fun h => absurd h.symm map_signalOf_ne_none
        · exact fun h => absurd ⟨(h.2 honly).mp rfl, honly⟩ hnot'
    · rcases signalWith_of_met hmet score' with ⟨rfl, honly, heq'⟩ | ⟨hnot', heq'⟩
      · rw [heq, heq']
        constructor
        · exact fun h => absurd h map_signalOf_ne_none
        · exact fun h => absurd ⟨(h.2 honly).mpr rfl, honly⟩ hnot
      · rw [heq, heq', map_signalOf_inj]
        constructor
        · rintro ⟨hread, -⟩
          exact ⟨hread, fun honly => ⟨fun hnull => absurd ⟨hnull, honly⟩ hnot,
            fun hnull => absurd ⟨hnull, honly⟩ hnot'⟩⟩
        · exact fun h => ⟨h.1, fun _ => rfl⟩

theorem metAll_ne_overflow (items : List (Json φ)) : metAll num items ≠ .error .overflowError := by
  induction items with
  | nil => exact fun h => by cases h
  | cons v items ih =>
    cases v with
    | obj m =>
      rw [metAll]
      split
      · exact ih
      · exact fun h => by cases h
    | null | bool | int | float | str | arr => exact fun h => by cases h

theorem allMet_ne_overflow (value : Json φ) : allMet num value ≠ .error .overflowError := by
  cases value with
  | arr items => exact metAll_ne_overflow items
  | null | bool | int | float | str | obj => exact fun h => by cases h

/-- A score that replaces a missing one overflows when the score does. -/
theorem readScore_effective_iff (score : Json φ) (status : String) :
    (∃ s, readScore num (effectiveScore num score status) = .ok s) ↔ ScoreConverts num score := by
  rw [← scoreConverts_effective_iff score status]
  rcases readScore_eq num (effectiveScore num score status) with ⟨hconv, hread⟩ | ⟨hconv, hread⟩
  · rw [hread]
    exact ⟨fun _ => hconv, fun _ => ⟨_, rfl⟩⟩
  · rw [hread]
    refine ⟨?_, fun h => absurd h hconv⟩
    rintro ⟨_, h⟩
    cases h

/-- Other must-haves give the same signal when they can be read, and say the same. -/
theorem signalWith_must_iff {must : Json φ} (hmust : must.truthy num.isZero = true) {met : Bool}
    (hmet : mustAllMet num (mustHaves num output) (decisionRaw num str output) = .ok met)
    (score : Json φ) :
    signalWith num str output score must =
        signalWith num str output score (mustHaves num output) ↔
      ListReadable num must ∧ ¬ (score = .null ∧ OnlyScore num str output) ∧
        (ScoreConverts num score → allMet num must =
          mustAllMet num (mustHaves num output) (decisionRaw num str output)) := by
  have hall : mustAllMet num must (decisionRaw num str output) = allMet num must := if_pos hmust
  rw [← allMet_returns_iff hmust, hmet]
  cases hread : allMet num must with
  | error e =>
    have hraise : signalWith num str output score must = .error e := by
      rw [signalWith, hall, hread]
      rfl
    rw [hraise]
    constructor
    · intro h
      rcases signalWith_of_met hmet score with ⟨-, -, heq⟩ | ⟨-, heq⟩
      · cases h.trans heq
      · rcases readScore_ok_or_overflow num
          (effectiveScore num score (textOf num str (valueAt output "status"))) with ⟨s, hs⟩ | hs
        · rw [hs] at heq
          cases h.trans heq
        · rw [hs] at heq
          cases h.trans heq
          exact absurd hread (allMet_ne_overflow must)
    · rintro ⟨⟨met', h⟩, -⟩
      cases h
  | ok met' =>
    have hreads : ∃ met'', (Except.ok met' : Except AggregateError Bool) = .ok met'' := ⟨met', rfl⟩
    have hsignal : signalWith num str output score must =
        (readScore num
          (effectiveScore num score (textOf num str (valueAt output "status")))).map
            fun score => some (signalOf num str output met' score) := by
      rw [signalWith, hall, hread]
      exact if_neg (by rw [isBlank_of_truthy hmust]; exact Bool.false_ne_true)
    rw [and_iff_right hreads, hsignal, Except.ok.injEq]
    rcases signalWith_of_met hmet score with ⟨hnull, honly, heq⟩ | ⟨hnot, heq⟩
    · rw [heq]
      exact ⟨fun h => absurd h map_signalOf_ne_none, fun h => absurd ⟨hnull, honly⟩ h.1⟩
    · rw [heq, map_signalOf_inj, and_iff_right rfl, readScore_effective_iff, and_iff_right hnot]

/-- Without `must_haves`, must-have results that say something are read. -/
theorem mustHaves_remove_of_results (h : UnsetKeys output keys) (hkey : "must_haves" ∈ keys)
    (htrue : (valueAt output "must_have_results").truthy num.isZero = true) :
    mustHaves num (Dict.remove keys output) = valueAt output "must_have_results" := by
  rw [mustHaves_eq, firstMustHaves_remove h, if_pos hkey, resultsOr_eq, if_pos htrue, if_pos htrue]

/-- A null or empty `must_haves` says nothing, unless there is a checklist. -/
theorem mustHaves_of_unset {value : Json φ} (hvalue : Dict.get? output "must_haves" = some value)
    (hunset : isUnset value = true) : mustHaves num output = checklistOr output value := by
  have hfirst : firstMustHaves num output = value := by simp only [firstMustHaves, hvalue]
  rw [mustHaves_eq, hfirst, truthy_of_isUnset hunset, if_neg Bool.false_ne_true]

/-- The must-haves that are read stay as they are, unless there are must-have results. -/
theorem mustHaves_remove (str : Json φ → String) (h : UnsetKeys output keys) :
    (∀ score, signalWith num str output score (mustHaves num (Dict.remove keys output)) =
        signalWith num str output score (mustHaves num output)) ∨
      ("must_haves" ∈ keys ∧ (valueAt output "must_have_results").truthy num.isZero = true) := by
  by_cases hkey : "must_haves" ∈ keys
  · cases htrue : (valueAt output "must_have_results").truthy num.isZero with
    | true => exact .inr ⟨hkey, rfl⟩
    | false =>
      left
      obtain ⟨-, value, hvalue, hunset⟩ := h _ hkey
      have hremove : mustHaves num (Dict.remove keys output) = checklistOr output (.arr []) := by
        rw [mustHaves_eq, firstMustHaves_remove h, checklistOr_remove h, if_pos hkey, resultsOr_eq,
          htrue, if_neg Bool.false_ne_true]
        rfl
      rw [hremove, mustHaves_of_unset hvalue hunset]
      intro score
      unfold checklistOr
      split
      · rfl
      · exact signalWith_of_falsy rfl (truthy_of_isUnset hunset) score
  · left
    intro score
    rw [mustHaves_eq num (Dict.remove keys output), firstMustHaves_remove h, checklistOr_remove h,
      if_neg hkey, ← mustHaves_eq]

theorem rawScore_remove_of_not_mem (h : UnsetKeys output keys) (hoverall : "overall_score" ∉ keys)
    (hscore : "score" ∉ keys) : rawScore (Dict.remove keys output) = rawScore output := by
  rw [rawScore_remove h, if_neg hscore]
  split
  · next hnone => rw [rawScore_eq, scoreField, hnone.resolve_left hoverall]
  · rfl

theorem readable_of_unset (h : ∃ value, Dict.get? output "must_haves" = some value ∧
    isUnset value = true) : MustHavesReadable num output := by
  obtain ⟨value, hvalue, hunset⟩ := h
  unfold MustHavesReadable
  rw [hvalue]
  exact listReadable_of_falsy (by rw [truthy_of_isUnset hunset]; exact Bool.false_ne_true)

end NullFieldsLemmas

open NullFieldsLemmas

/-! ## 3. When null means absent -/

section Absent
variable {num : Numerics φ} {str : Json φ → String} {output : Fields φ} {keys : List String}

/-- Only the raw score and the must-haves can change. -/
theorem extractCvSignal_removeUnset (h : UnsetKeys output keys) :
    extractCvSignal num str (Dict.remove keys output) =
      signalWith num str output (rawScore (Dict.remove keys output))
        (mustHaves num (Dict.remove keys output)) := by
  rw [extractCvSignal_eq_signalWith, signalWith_remove h]

theorem sameScore_of_hidesNothing (hhides : HidesNothing num str output) (h : UnsetKeys output keys)
    (hread : MustHavesReadable num output) :
    SameScore num str output (rawScore output) (rawScore (Dict.remove keys output)) := by
  have hunset : ∀ {key}, key ∈ keys → isUnset (valueAt output key) = true := by
    intro key hkey
    obtain ⟨-, value, hvalue, hunset⟩ := h key hkey
    rw [valueAt, hvalue]
    exact hunset
  rw [rawScore_remove h]
  split
  · next hoverall =>
    split
    · next hscore =>
      refine hhides.score hread (fun value hvalue => ?_) (hunset hscore)
      rcases hoverall with hkey | hnone
      · obtain ⟨-, value', hvalue', hunset'⟩ := h _ hkey
        cases hvalue.symm.trans hvalue'
        exact hunset'
      · cases hvalue.symm.trans hnone
    · rcases hoverall with hkey | hnone
      · exact hhides.overallScore hread (h _ hkey).2
      · rw [rawScore_eq, scoreField, hnone]
        exact ⟨rfl, fun _ => Iff.rfl⟩
  · exact ⟨rfl, fun _ => Iff.rfl⟩

/-- Fields that hide nothing can be left out. -/
theorem nullMeansAbsent_of_hidesNothing (hhides : HidesNothing num str output) :
    NullMeansAbsent num str output := by
  intro keys h
  have hscore := (signalWith_score_iff _ _).mpr (sameScore_of_hidesNothing hhides h)
  rw [extractCvSignal_removeUnset h, extractCvSignal_eq_signalWith output]
  rcases mustHaves_remove str h with heq | ⟨hkey, htrue⟩
  · rw [heq, hscore]
  · obtain ⟨hlist, hsays, hsame⟩ := hhides.mustHaves (h _ hkey).2 htrue
    have hread : MustHavesReadable num output := readable_of_unset (h _ hkey).2
    obtain ⟨met, hmet⟩ := (readable_iff str output).mp hread
    obtain ⟨hreads, hnull⟩ := sameScore_of_hidesNothing hhides h hread
    rw [mustHaves_remove_of_results h hkey htrue, hscore]
    refine (signalWith_must_iff htrue hmet _).mpr ⟨hlist, ?_, fun hconv => hsame ?_⟩
    · rintro ⟨hraw, honly⟩
      exact hsays ⟨(hnull honly).mpr hraw, honly⟩
    · rw [← readScore_effective_iff _ (textOf num str (valueAt output "status"))] at hconv ⊢
      rw [hreads]
      exact hconv

/-- Removing anything but `must_haves` shows how the raw scores read. -/
theorem sameScore_of_absent (habsent : NullMeansAbsent num str output) (h : UnsetKeys output keys)
    (hkey : "must_haves" ∉ keys) (hread : MustHavesReadable num output) :
    SameScore num str output (rawScore output) (rawScore (Dict.remove keys output)) := by
  refine (signalWith_score_iff _ _).mp ?_ hread
  have heq := habsent keys h
  rw [extractCvSignal_removeUnset h, extractCvSignal_eq_signalWith output] at heq
  rcases mustHaves_remove str h with hmust | ⟨hmem, -⟩
  · rw [hmust] at heq
    exact heq.symm
  · exact absurd hmem hkey

theorem unsetKeys_singleton {key : String} (hkey : key ∈ recognisedKeys)
    (h : ∃ value, Dict.get? output key = some value ∧ isUnset value = true) :
    UnsetKeys output [key] := by
  intro key' hmem
  rw [List.mem_singleton.mp hmem]
  exact ⟨hkey, h⟩

/-- The keys of scores that the output has. -/
def scoreKeys (output : Fields φ) : List String :=
  ["overall_score", "score"].filter fun key => (Dict.get? output key).isSome

theorem mem_scoreKeys {key : String} : key ∈ scoreKeys output ↔
    (key = "overall_score" ∨ key = "score") ∧ (Dict.get? output key).isSome := by
  rw [scoreKeys, List.mem_filter, List.mem_pair]

theorem not_mem_scoreKeys : "must_haves" ∉ scoreKeys output :=
  fun hkey => by simpa using (mem_scoreKeys.mp hkey).1

theorem unsetKeys_scoreKeys
    (hoverall : ∀ value, Dict.get? output "overall_score" = some value → isUnset value = true)
    (hscore : isUnset (valueAt output "score") = true) : UnsetKeys output (scoreKeys output) := by
  intro key hkey
  obtain ⟨hpair, hsome⟩ := mem_scoreKeys.mp hkey
  obtain ⟨value, hvalue⟩ := Option.isSome_iff_exists.mp hsome
  rcases hpair with rfl | rfl
  · exact ⟨by simp [recognisedKeys], value, hvalue, hoverall value hvalue⟩
  · refine ⟨by simp [recognisedKeys], value, hvalue, ?_⟩
    rwa [valueAt, hvalue] at hscore

/-- Without both scores, the composite one is read. -/
theorem rawScore_remove_scoreKeys (h : UnsetKeys output (scoreKeys output)) :
    rawScore (Dict.remove (scoreKeys output) output) = compositeValue output := by
  have hfirst : "overall_score" ∈ scoreKeys output ∨ Dict.get? output "overall_score" = none := by
    cases hget : Dict.get? output "overall_score" with
    | none => exact .inr rfl
    | some value => exact .inl (mem_scoreKeys.mpr ⟨.inl rfl, by rw [hget]; rfl⟩)
  have hnull : (if "score" ∈ scoreKeys output then Json.null else valueAt output "score") =
      .null := by
    split
    · rfl
    · next hkey =>
      unfold valueAt
      cases hget : Dict.get? output "score" with
      | none => rfl
      | some value => exact absurd (mem_scoreKeys.mpr ⟨.inr rfl, by rw [hget]; rfl⟩) hkey
  rw [rawScore_remove h, if_pos hfirst, hnull]
  rfl

/-- Fields that can be left out hide nothing. -/
theorem hidesNothing_of_nullMeansAbsent (habsent : NullMeansAbsent num str output) :
    HidesNothing num str output := by
  constructor
  case overallScore =>
    intro hread hvalue
    have h := unsetKeys_singleton (by simp [recognisedKeys]) hvalue
    have hsame := sameScore_of_absent habsent h (by simp) hread
    rwa [rawScore_remove h, if_pos (.inl List.mem_cons_self), if_neg (by simp)] at hsame
  case score =>
    intro hread hoverall hscore
    have h := unsetKeys_scoreKeys hoverall hscore
    have hsame := sameScore_of_absent habsent h not_mem_scoreKeys hread
    rwa [rawScore_remove_scoreKeys h] at hsame
  case mustHaves =>
    intro hvalue htrue
    have h := unsetKeys_singleton (by simp [recognisedKeys]) hvalue
    obtain ⟨met, hmet⟩ := (readable_iff str output).mp (readable_of_unset hvalue)
    have heq := habsent _ h
    rw [extractCvSignal_removeUnset h, extractCvSignal_eq_signalWith output,
      mustHaves_remove_of_results h List.mem_cons_self htrue,
      rawScore_remove_of_not_mem h (by simp) (by simp)] at heq
    exact (signalWith_must_iff htrue hmet _).mp heq

/-- Fields can be left out exactly when they hide nothing. -/
theorem nullMeansAbsent_iff_hidesNothing :
    NullMeansAbsent num str output ↔ HidesNothing num str output :=
  ⟨hidesNothing_of_nullMeansAbsent, nullMeansAbsent_of_hidesNothing⟩

/-- Leaving out fields that mean nothing does not change the aggregate. -/
theorem aggregateCvScoring_of_absent {order : SetOrder} {outputs outputs' : List (Fields φ)}
    {sourceArtifacts : List SourceArtifact}
    (habsent : ∀ output ∈ outputs, NullMeansAbsent num str output)
    (h : List.Forall₂ OmitsUnset outputs outputs') :
    aggregateCvScoring num str order outputs' sourceArtifacts =
      aggregateCvScoring num str order outputs sourceArtifacts := by
  have hmap : outputs'.mapM (extractCvSignal num str) = outputs.mapM (extractCvSignal num str) := by
    induction h with
    | nil => rfl
    | cons homits _ ih =>
      obtain ⟨keys, hkeys, rfl⟩ := homits
      rw [List.mapM_cons, List.mapM_cons, habsent _ List.mem_cons_self keys hkeys,
        ih fun output ho => habsent output (List.mem_cons_of_mem _ ho)]
  rw [aggregateCvScoring_eq_bind, aggregateCvScoring_eq_bind, hmap]

end Absent

end TalentMatch
