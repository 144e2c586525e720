import TalentMatch.NullFields

/-!
# What null fields hide

When a field without a value means the same as an absent one, said of the fields of the
output. A null or empty `overall_score` hides `score`, and with an empty list in the place
of the score the composite one is not asked for; a null or empty `must_haves` hides
`must_have_results`.

Results:
1. `nullSafe_iff`: the condition on the fields is the condition on what is read.
2. `nullMeansAbsent_iff`: a field without a value means the same as an absent one exactly
   under this condition, and then the aggregate is the same too.
3. `null_alternatives_hide`: an output with its alternatives written as null gives no
   signal.
-/

namespace TalentMatch

open MustHavesLemmas MalformedLemmas NullFieldsLemmas

variable {φ : Type}

/-! ## 1. What the fields say -/

section Fields
variable (num : Numerics φ) (str : Json φ → String) (output : Fields φ)

/-- The text of `decision`, or of `final_decision` in its place. -/
def decisionText : String :=
  textOf num str (orValue num (valueAt output "decision") (valueAt output "final_decision"))

/-- The text of `eligibility.status`. -/
def eligibilityText : String := textOf num str (valueAt (objectAt output "eligibility") "status")

/-- The text of `status`. -/
def statusText : String := textOf num str (valueAt output "status")

/-- The status counts a missing score as zero. -/
def NoData : Prop := statusText num str output ∈ negativeStatuses

def HasDecision : Prop := decisionText num str output ≠ "" ∨ eligibilityText num str output ≠ ""

/-- The decision is positive; eligibility counts where there is no decision. -/
def PositiveDecision : Prop :=
  decisionText num str output ∈ positiveDecisions ∨
    (decisionText num str output = "" ∧ eligibilityText num str output ∈ positiveDecisions)

/-- The checklist has this entry. -/
def ChecklistEntry (entry : Fields φ) : Prop :=
  ∃ entries,
    Dict.get? (objectAt output "eligibility") "requirements_checklist" = some (.obj entries) ∧
      .obj entry ∈ entries.map Prod.snd

/-- One of the three places lists must-haves that are read. -/
def HasMustHaves : Prop :=
  (valueAt output "must_haves").truthy num.isZero = true ∨
    (Dict.get? output "must_haves" = none ∧
      (valueAt output "must_have_results").truthy num.isZero = true) ∨
    ∃ entry, ChecklistEntry output entry

/-- There is more than a score. -/
def SaysMore : Prop :=
  HasMustHaves num output ∨ HasDecision num str output ∨ statusText num str output ≠ ""

/-- One of the three scores is there, and none hides it. -/
def HasRawScore : Prop :=
  (∃ value, Dict.get? output "overall_score" = some value ∧ value ≠ .null) ∨
    (Dict.get? output "overall_score" = none ∧ valueAt output "score" ≠ .null) ∨
    compositeValue output ≠ .null

/-- The score that is read is not too large for floating point. -/
structure ScoreFits : Prop where
  overallScore : ∀ value, Dict.get? output "overall_score" = some value → ScoreConverts num value
  score : Dict.get? output "overall_score" = none → ScoreConverts num (valueAt output "score")
  composite : Dict.get? output "overall_score" = some .null ∨
      (Dict.get? output "overall_score" = none ∧ valueAt output "score" = .null) →
    ScoreConverts num (compositeValue output)

/-- Neither a number nor a boolean. -/
def NotNumber : Json φ → Prop
  | .bool _ | .int _ | .float _ => False
  | _ => True

/-- The value is the number zero. -/
def IsZeroNumber (value : Json φ) : Prop := readScore num value = .ok (some num.zero)

/-- A score can be left out or shown where nothing is read instead: it is no number, and
where it is null there is no status that makes it zero, and more than a score. -/
def NoNumberLost (score : Json φ) : Prop :=
  NotNumber score ∧ (score = .null → ¬ NoData num str output ∧ SaysMore num str output)

/-- The must-haves that count as long as `must_haves` and `must_have_results` list none
are met: all entries of the checklist, or the decision is positive. -/
def MetOtherwise : Prop :=
  ((∃ entry, ChecklistEntry output entry) ∧
      ∀ entry, ChecklistEntry output entry → isMet num entry = true) ∨
    ((¬ ∃ entry, ChecklistEntry output entry) ∧ PositiveDecision num str output)

/-- Fields without a value hide nothing. -/
structure NullSafe : Prop where
  /-- A null `overall_score` hides a `score`, unless the composite score is the same number. -/
  nullOverall : MustHavesReadable num output → Dict.get? output "overall_score" = some .null →
    valueAt output "score" ≠ .null → compositeValue output ≠ .null →
      readScore num (valueAt output "score") = readScore num (compositeValue output)
  /-- Without a composite score, it is zero or nothing that it hides. -/
  nullScores : MustHavesReadable num output → Dict.get? output "overall_score" = some .null →
    valueAt output "score" ≠ .null → compositeValue output = .null →
      (NoData num str output ∧ IsZeroNumber num (valueAt output "score")) ∨
        (¬ NoData num str output ∧ NotNumber (valueAt output "score") ∧ SaysMore num str output)
  /-- An empty `overall_score` hides a `score` that is a number. -/
  emptyOverall : MustHavesReadable num output →
    Dict.get? output "overall_score" = some (.arr []) → NotNumber (valueAt output "score")
  /-- An empty list in the place of the score hides a composite score. -/
  emptyScore : MustHavesReadable num output →
    (Dict.get? output "overall_score" = some (.arr []) ∧ isUnset (valueAt output "score") = true) ∨
      (Dict.get? output "overall_score" = none ∧ valueAt output "score" = .arr []) →
      NoNumberLost num str output (compositeValue output)
  /-- A null or empty `must_haves` hides must-have results, unless these can be read, are
  not all that the output says, and agree with what it says without them. -/
  mustHaves : (∃ value, Dict.get? output "must_haves" = some value ∧ isUnset value = true) →
    (valueAt output "must_have_results").truthy num.isZero = true →
      ∃ items, valueAt output "must_have_results" = .arr items ∧ EntriesReadable num items ∧
        (HasRawScore output ∨ SaysMore num str output) ∧
        (ScoreFits num output →
          ((∀ item ∈ items, ∃ entry, item = .obj entry ∧ isMet num entry = true) ↔
            MetOtherwise num str output))

end Fields

/-! ## 2. The fields and what is read -/

namespace NullConditionsLemmas

variable {num : Numerics φ} {str : Json φ → String} {output : Fields φ}

theorem decisionRaw_eq : decisionRaw num str output =
    if decisionText num str output = "" then eligibilityText num str output
    else decisionText num str output := rfl

theorem hasDecision_iff : HasDecision num str output ↔ decisionRaw num str output ≠ "" := by
  rw [HasDecision, decisionRaw_eq]
  by_cases h : decisionText num str output = ""
  · simp [h]
  · simp [h]

theorem positiveDecision_iff : PositiveDecision num str output ↔
    (decisionRaw num str output != "" &&
      positiveDecisions.contains (decisionRaw num str output)) = true := by
  have hne : ∀ text ∈ positiveDecisions, text ≠ "" := by decide
  rw [PositiveDecision, decisionRaw_eq, Bool.and_eq_true, bne_iff_ne, List.contains_iff_mem,
    and_iff_right_of_imp (hne _)]
  by_cases h : decisionText num str output = ""
  · rw [if_pos h, and_iff_right h]
    exact or_iff_right fun hmem => hne _ hmem h
  · rw [if_neg h]
    exact or_iff_left fun hboth => h hboth.1

/-- The entries of the checklist are what is read in their place. -/
theorem mem_checklistOr {first : Json φ} (h : first.truthy num.isZero = false) :
    (∃ entry, ChecklistEntry output entry) ↔
      (checklistOr output first).truthy num.isZero = true := by
  unfold ChecklistEntry checklistOr
  split
  · next entries hentries =>
    constructor
    · rintro ⟨entry, entries', heq, hmem⟩
      rw [hentries] at heq
      cases heq
      exact truthy_of_mem (List.mem_filter.mpr ⟨hmem, rfl⟩)
    · intro htrue
      obtain ⟨objects, hobjects⟩ := exists_objects (entries.map Prod.snd)
      rw [hobjects] at htrue
      cases objects with
      | nil => cases htrue
      | cons entry objects =>
        have hmem : Json.obj entry ∈ (entry :: objects).map Json.obj := List.mem_cons_self
        rw [← hobjects] at hmem
        exact ⟨entry, entries, hentries, (List.mem_filter.mp hmem).1⟩
  · next hnone =>
    constructor
    · rintro ⟨entry, entries, heq, -⟩
      exact absurd heq (hnone entries)
    · intro htrue
      rw [h] at htrue
      cases htrue

theorem truthy_firstMustHaves : (firstMustHaves num output).truthy num.isZero = true ↔
    (valueAt output "must_haves").truthy num.isZero = true ∨
      (Dict.get? output "must_haves" = none ∧
        (valueAt output "must_have_results").truthy num.isZero = true) := by
  have hresults : (resultsOr num output).truthy num.isZero = true ↔
      (valueAt output "must_have_results").truthy num.isZero = true := by
    rw [resultsOr_eq]
    split
    · exact Iff.rfl
    · next hfalsy => exact iff_of_false Bool.false_ne_true hfalsy
  unfold firstMustHaves
  rw [← resultsOr]
  cases hget : Dict.get? output "must_haves" with
  | some value => simp [valueAt, hget]
  | none =>
    have hnull : valueAt output "must_haves" = .null := by rw [valueAt, hget, Option.getD_none]
    rw [hnull, ← hresults, and_iff_right rfl]
    exact (or_iff_right Bool.false_ne_true).symm

theorem hasMustHaves_iff :
    HasMustHaves num output ↔ (mustHaves num output).truthy num.isZero = true := by
  rw [HasMustHaves, ← or_assoc, ← truthy_firstMustHaves, mustHaves_eq]
  cases hfirst : (firstMustHaves num output).truthy num.isZero with
  | true => simp [hfirst]
  | false =>
    rw [mem_checklistOr hfirst]
    simp

theorem saysMore_iff : SaysMore num str output ↔ ¬ OnlyScore num str output := by
  rw [SaysMore, OnlyScore, hasMustHaves_iff, hasDecision_iff, statusText]
  cases (mustHaves num output).truthy num.isZero with
  | true => simp
  | false =>
    simp only [Bool.false_eq_true, false_or, true_and]
    exact (not_and_or).symm

theorem hasRawScore_iff : HasRawScore output ↔ rawScore output ≠ .null := by
  rw [HasRawScore, rawScore_eq, scoreField]
  cases hoverall : Dict.get? output "overall_score" with
  | some value => cases value <;> simp [orComposite]
  | none =>
    cases hscore : valueAt output "score" <;> simp [orComposite]

theorem says_iff : (HasRawScore output ∨ SaysMore num str output) ↔
    ¬ SaysNothing num str output := by
  rw [hasRawScore_iff, saysMore_iff, ← not_and_or]
  exact Iff.rfl

theorem scoreFits_iff : ScoreFits num output ↔ ScoreConverts num (rawScore output) := by
  rw [rawScore_eq, scoreField]
  constructor
  · rintro ⟨hoverall, hscore, hcomposite⟩
    cases hget : Dict.get? output "overall_score" with
    | some value =>
      cases value with
      | null => exact hcomposite (.inl hget)
      | bool | int | float | str | arr | obj => exact hoverall _ hget
    | none =>
      cases hvalue : valueAt output "score" with
      | null => exact hcomposite (.inr ⟨hget, hvalue⟩)
      | bool | int | float | str | arr | obj =>
        simp only [orComposite]
        exact hvalue ▸ hscore hget
  · intro h
    refine ⟨fun value hvalue => ?_, fun hnone => ?_, ?_⟩
    · rw [hvalue] at h
      cases value with
      | null => exact trivial
      | bool | int | float | str | arr | obj => exact h
    · rw [hnone] at h
      cases hscore : valueAt output "score" with
      | null => exact trivial
      | bool | int | float | str | arr | obj =>
        simp only [orComposite, hscore] at h
        exact h
    · rintro (hnull | ⟨hnone, hscore⟩)
      · rw [hnull] at h
        exact h
      · rw [hnone] at h
        simp only [orComposite, hscore] at h
        exact h

theorem isUnset_iff {value : Json φ} : isUnset value = true ↔ value = .null ∨ value = .arr [] := by
  cases value with
  | arr items => simp [isUnset]
  | null | bool | int | float | str | obj => simp [isUnset]

theorem readScore_none_iff {value : Json φ} :
    readScore num value = .ok none ↔ NotNumber value := by
  cases value with
  | int i =>
    rw [readScore]
    cases num.ofInt i <;> simp [NotNumber]
  | bool b =>
    rw [readScore]
    cases num.ofInt (if b then 1 else 0) <;> simp [NotNumber]
  | null | float | str | arr | obj => simp [readScore, NotNumber]

/-- A score that is there is not replaced. -/
theorem effectiveScore_of_ne {score : Json φ} (h : score ≠ .null) (status : String) :
    effectiveScore num score status = score := by
  cases score with
  | null => exact absurd rfl h
  | bool | int | float | str | arr | obj => rfl

/-! ## 3. Scores -/

theorem sameScore_refl (score : Json φ) : SameScore num str output score score :=
  ⟨rfl, fun _ => Iff.rfl⟩

theorem sameScore_comm {score score' : Json φ} :
    SameScore num str output score score' ↔ SameScore num str output score' score := by
  unfold SameScore
  rw [eq_comm, iff_comm (a := score = .null)]

/-- Two scores that are there read alike when they convert alike. -/
theorem sameScore_of_ne {score score' : Json φ} (h : score ≠ .null) (h' : score' ≠ .null) :
    SameScore num str output score score' ↔ readScore num score = readScore num score' := by
  unfold SameScore
  rw [effectiveScore_of_ne h, effectiveScore_of_ne h']
  exact and_iff_left fun _ => iff_of_false h h'

/-- A score reads like a missing one when it is the zero of the status, or nothing. -/
theorem sameScore_null {score : Json φ} (h : score ≠ .null) :
    SameScore num str output .null score ↔
      (NoData num str output ∧ IsZeroNumber num score) ∨
        (¬ NoData num str output ∧ NotNumber score ∧ SaysMore num str output) := by
  unfold SameScore
  rw [effectiveScore_of_ne h, ← statusText]
  by_cases hdata : NoData num str output
  · -- a status without data is a text
    have honly : ¬ OnlyScore num str output := by
      rintro ⟨-, -, hstatus⟩
      rw [NoData, statusText, hstatus] at hdata
      exact absurd hdata (by decide)
    have hzero : effectiveScore num .null (statusText num str output) = .float num.zero :=
      if_pos (List.contains_iff_mem.mpr hdata)
    rw [hzero, and_iff_left fun hcase => absurd hcase honly, and_iff_right hdata,
      or_iff_left fun hnot => hnot.1 hdata]
    exact eq_comm
  · have hnull : effectiveScore num .null (statusText num str output) = .null :=
      if_neg fun htrue => hdata (List.contains_iff_mem.mp htrue)
    rw [hnull, or_iff_right fun hboth => hdata hboth.1, and_iff_right hdata, saysMore_iff,
      ← readScore_none_iff, eq_comm]
    refine and_congr Iff.rfl ⟨fun hcase honly => h ((hcase honly).mp rfl), fun honly hcase => ?_⟩
    exact absurd hcase honly

/-- A score reads like an empty list when no number is lost. -/
theorem sameScore_empty {score : Json φ} :
    SameScore num str output (.arr []) score ↔ NoNumberLost num str output score := by
  by_cases h : score = .null
  · subst h
    have hzero : ¬ IsZeroNumber num (.arr []) := fun hread => by cases hread
    rw [sameScore_comm, sameScore_null (by simp), or_iff_right fun hboth => hzero hboth.2,
      NoNumberLost, imp_iff_right rfl]
    exact ⟨fun hboth => ⟨trivial, hboth.1, hboth.2.2⟩, fun hboth => ⟨hboth.2.1, trivial, hboth.2.2⟩⟩
  · rw [sameScore_of_ne (by simp) h, eq_comm]
    exact readScore_none_iff.trans (and_iff_left fun hnull => absurd hnull h).symm

theorem rawScore_of_null (h : Dict.get? output "overall_score" = some .null) :
    rawScore output = compositeValue output := by
  rw [rawScore_eq, scoreField, h]
  rfl

theorem rawScore_of_empty (h : Dict.get? output "overall_score" = some (.arr [])) :
    rawScore output = .arr [] := by
  rw [rawScore_eq, scoreField, h]
  rfl

theorem rawScore_of_none (h : Dict.get? output "overall_score" = none) :
    rawScore output = orComposite output (valueAt output "score") := by
  rw [rawScore_eq, scoreField, h]

theorem orComposite_of_ne {score : Json φ} (h : score ≠ .null) :
    orComposite output score = score := by
  cases score with
  | null => exact absurd rfl h
  | bool | int | float | str | arr | obj => rfl

/-- What the score shows in the place of an `overall_score` without a value. -/
theorem overallScore_of_safe (hsafe : NullSafe num str output) (hread : MustHavesReadable num output)
    (h : ∃ value, Dict.get? output "overall_score" = some value ∧ isUnset value = true) :
    SameScore num str output (rawScore output) (orComposite output (valueAt output "score")) := by
  obtain ⟨value, hvalue, hunset⟩ := h
  rcases isUnset_iff.mp hunset with rfl | rfl
  · rw [rawScore_of_null hvalue]
    by_cases hscore : valueAt output "score" = .null
    · rw [hscore]
      exact sameScore_refl _
    · rw [orComposite_of_ne hscore]
      by_cases hcomposite : compositeValue output = .null
      · rw [hcomposite]
        exact (sameScore_null hscore).mpr (hsafe.nullScores hread hvalue hscore hcomposite)
      · exact (sameScore_of_ne hcomposite hscore).mpr
          (hsafe.nullOverall hread hvalue hscore hcomposite).symm
  · rw [rawScore_of_empty hvalue, sameScore_empty]
    by_cases hscore : valueAt output "score" = .null
    · rw [hscore]
      exact hsafe.emptyScore hread (.inl ⟨hvalue, by rw [hscore]; rfl⟩)
    · rw [orComposite_of_ne hscore]
      exact ⟨hsafe.emptyOverall hread hvalue, fun hnull => absurd hnull hscore⟩

/-- What the composite score shows in the place of both. -/
theorem score_of_safe (hsafe : NullSafe num str output) (hread : MustHavesReadable num output)
    (hoverall : ∀ value, Dict.get? output "overall_score" = some value → isUnset value = true)
    (hscore : isUnset (valueAt output "score") = true) :
    SameScore num str output (rawScore output) (compositeValue output) := by
  cases hget : Dict.get? output "overall_score" with
  | some value =>
    rcases isUnset_iff.mp (hoverall value hget) with rfl | rfl
    · rw [rawScore_of_null hget]
      exact sameScore_refl _
    · rw [rawScore_of_empty hget, sameScore_empty]
      exact hsafe.emptyScore hread (.inl ⟨hget, hscore⟩)
  | none =>
    rw [rawScore_of_none hget]
    rcases isUnset_iff.mp hscore with hnull | hempty
    · rw [hnull]
      exact sameScore_refl _
    · rw [hempty]
      exact sameScore_empty.mpr (hsafe.emptyScore hread (.inr ⟨hget, hempty⟩))

/-! ## 4. Must-haves -/

theorem metAll_eq_true_iff (items : List (Json φ)) :
    metAll num items = .ok true ↔
      ∀ item ∈ items, ∃ entry, item = .obj entry ∧ isMet num entry = true := by
  induction items with
  | nil => simp [metAll]
  | cons v items ih =>
    rw [List.forall_mem_cons]
    cases v with
    | obj m =>
      rw [metAll, ← isMet]
      cases hmet : isMet num m with
      | true => simp [hmet, ih]
      | false => simp [hmet]
    | null | bool | int | float | str | arr => simp [metAll]

/-- Without must-haves of its own, the output counts its checklist or its decision. -/
theorem mustAllMet_otherwise
    (h : ∃ value, Dict.get? output "must_haves" = some value ∧ isUnset value = true) :
    ∃ met, mustAllMet num (mustHaves num output) (decisionRaw num str output) = .ok met ∧
      (met = true ↔ MetOtherwise num str output) := by
  obtain ⟨value, hvalue, hunset⟩ := h
  have hfalsy : value.truthy num.isZero = false := truthy_of_isUnset hunset
  rw [mustHaves_of_unset hvalue hunset, MetOtherwise, mem_checklistOr hfalsy, mustAllMet]
  cases htrue : (checklistOr output value).truthy num.isZero with
  | false => exact ⟨_, rfl, by simp [positiveDecision_iff]⟩
  | true =>
    obtain ⟨entry, entries, hentries, -⟩ := (mem_checklistOr hfalsy).mpr htrue
    obtain ⟨objects, hobjects⟩ := exists_objects (entries.map Prod.snd)
    have hlist : checklistOr output value = .arr (objects.map .obj) := by
      rw [← hobjects]
      simp only [checklistOr, hentries]
    have hmem : ∀ entry, ChecklistEntry output entry ↔ entry ∈ objects := by
      intro entry
      have hfilter : Json.obj entry ∈ objects.map Json.obj ↔ .obj entry ∈ entries.map Prod.snd := by
        rw [← hobjects, List.mem_filter]
        exact and_iff_left rfl
      rw [← List.mem_map_of_injective (f := Json.obj) (fun _ _ heq => by cases heq; rfl), hfilter]
      constructor
      · rintro ⟨entries', heq, hin⟩
        cases hentries.symm.trans heq
        exact hin
      · exact fun hin => ⟨entries, hentries, hin⟩
    refine ⟨objects.all (isMet num), ?_, ?_⟩
    · rw [if_pos rfl, hlist]
      exact metAll_objects objects
    · simp [hmem]

end NullConditionsLemmas

open NullConditionsLemmas

/-! ## 5. When null means absent -/

section Absent
variable {num : Numerics φ} {str : Json φ → String} {output : Fields φ}

/-- Must-have results that are shown agree with what is read without them. -/
theorem mustHaves_iff
    (h : ∃ value, Dict.get? output "must_haves" = some value ∧ isUnset value = true)
    (htrue : (valueAt output "must_have_results").truthy num.isZero = true) :
    (∃ items, valueAt output "must_have_results" = .arr items ∧ EntriesReadable num items ∧
        (HasRawScore output ∨ SaysMore num str output) ∧
        (ScoreFits num output →
          ((∀ item ∈ items, ∃ entry, item = .obj entry ∧ isMet num entry = true) ↔
            MetOtherwise num str output))) ↔
      ListReadable num (valueAt output "must_have_results") ∧ ¬ SaysNothing num str output ∧
        (ScoreConverts num (rawScore output) →
          allMet num (valueAt output "must_have_results") =
            mustAllMet num (mustHaves num output) (decisionRaw num str output)) := by
  have hmust : ∃ met, mustAllMet num (mustHaves num output) (decisionRaw num str output) = .ok met ∧
      (met = true ↔ MetOtherwise num str output) := mustAllMet_otherwise h
  obtain ⟨met, hmet, hother⟩ := hmust
  rw [hmet, scoreFits_iff, says_iff]
  have hagree : ∀ items, EntriesReadable num items →
      (allMet num (.arr items) = .ok met ↔
        ((∀ item ∈ items, ∃ entry, item = .obj entry ∧ isMet num entry = true) ↔
          MetOtherwise num str output)) := by
    intro items hitems
    obtain ⟨met', hmet'⟩ := (metAll_returns_iff items).mpr hitems
    rw [← metAll_eq_true_iff, ← hother, allMet, hmet', Except.ok.injEq, Except.ok.injEq]
    exact Bool.eq_iff_iff
  constructor
  · rintro ⟨items, hitems, hread, hsays, hsame⟩
    rw [hitems]
    exact ⟨fun _ => ⟨items, rfl, hread⟩, hsays, fun hfits => (hagree items hread).mpr (hsame hfits)⟩
  · rintro ⟨hlist, hsays, hsame⟩
    obtain ⟨items, hitems, hread⟩ := hlist htrue
    rw [hitems] at hsame
    exact ⟨items, hitems, hread, hsays, fun hfits => (hagree items hread).mp (hsame hfits)⟩

/-- The condition on the fields is the condition on what is read. -/
theorem nullSafe_iff : NullSafe num str output ↔ HidesNothing num str output := by
  constructor
  · intro hsafe
    exact
      { overallScore := overallScore_of_safe hsafe
        score := score_of_safe hsafe
        mustHaves := fun h htrue => (mustHaves_iff h htrue).mp (hsafe.mustHaves h htrue) }
  · intro hhides
    constructor
    case nullOverall =>
      intro hread hnull hscore hcomposite
      have hsame := hhides.overallScore hread ⟨_, hnull, rfl⟩
      rw [rawScore_of_null hnull, orComposite_of_ne hscore] at hsame
      exact ((sameScore_of_ne hcomposite hscore).mp hsame).symm
    case nullScores =>
      intro hread hnull hscore hcomposite
      have hsame := hhides.overallScore hread ⟨_, hnull, rfl⟩
      rw [rawScore_of_null hnull, orComposite_of_ne hscore, hcomposite] at hsame
      exact (sameScore_null hscore).mp hsame
    case emptyOverall =>
      intro hread hempty
      by_cases hscore : valueAt output "score" = .null
      · rw [hscore]
        exact trivial
      · have hsame := hhides.overallScore hread ⟨_, hempty, rfl⟩
        rw [rawScore_of_empty hempty, orComposite_of_ne hscore] at hsame
        exact (sameScore_empty.mp hsame).1
    case emptyScore =>
      intro hread hcase
      rcases hcase with ⟨hempty, hunset⟩ | ⟨hnone, hempty⟩
      · have hsame := hhides.score hread (fun value hvalue => by
          cases hempty.symm.trans hvalue
          rfl) hunset
        rw [rawScore_of_empty hempty] at hsame
        exact sameScore_empty.mp hsame
      · have hsame := hhides.score hread (fun value hvalue => by
          cases hnone.symm.trans hvalue) (by rw [hempty]; rfl)
        rw [rawScore_of_none hnone, hempty] at hsame
        exact sameScore_empty.mp hsame
    case mustHaves =>
      exact fun h htrue => (mustHaves_iff h htrue).mpr (hhides.mustHaves h htrue)

end Absent

/-- A field without a value means the same as an absent one exactly where it hides nothing,
and there the aggregate is the same too. -/
theorem nullMeansAbsent_iff (num : Numerics φ) (str : Json φ → String) :
    (∀ output, NullMeansAbsent num str output ↔ NullSafe num str output) ∧
      ∀ order outputs outputs' sourceArtifacts, (∀ output ∈ outputs, NullSafe num str output) →
        List.Forall₂ OmitsUnset outputs outputs' →
          aggregateCvScoring num str order outputs' sourceArtifacts =
            aggregateCvScoring num str order outputs sourceArtifacts := by
  have hiff : ∀ output, NullMeansAbsent num str output ↔ NullSafe num str output :=
    fun _ => nullMeansAbsent_iff_hidesNothing.trans nullSafe_iff.symm
  exact ⟨hiff, fun _ _ _ _ hsafe =>
    aggregateCvScoring_of_absent fun output ho => (hiff output).mpr (hsafe output ho)⟩

namespace Sample

/-- An output that writes `decision` as null. -/
def nullDecision : Fields ℚ :=
  [("overall_score", .int 5), ("must_haves", .arr [entry true]), ("decision", .null),
    ("final_decision", .str "reject")]

theorem nullSafe_nullDecision : NullSafe numerics str nullDecision where
  nullOverall _ h := by cases h
  nullScores _ h := by cases h
  emptyOverall _ h := by cases h
  emptyScore _ h := by
    rcases h with ⟨h, -⟩ | ⟨h, -⟩
    · cases h
    · cases h
  mustHaves h _ := by
    obtain ⟨value, hvalue, hunset⟩ := h
    cases hvalue
    cases hunset

end Sample

/-- An unused `decision` can be left out. -/
theorem nullMeansAbsent_iff_sample :
    aggregateCvScoring Sample.numerics Sample.str Sample.setOrder
        [Dict.remove ["decision"] Sample.nullDecision] [] =
      aggregateCvScoring Sample.numerics Sample.str Sample.setOrder [Sample.nullDecision] [] := by
  refine (nullMeansAbsent_iff Sample.numerics Sample.str).2 _ _ _ _ ?_ ?_
  · intro output ho
    rw [List.mem_singleton.mp ho]
    exact Sample.nullSafe_nullDecision
  · refine .cons ⟨_, ?_, rfl⟩ .nil
    exact unsetKeys_singleton (by simp [recognisedKeys]) ⟨.null, rfl, rfl⟩

namespace Sample

/-- An output that writes the alternatives it does not use as null. -/
def nullAlternatives : Fields ℚ :=
  [("overall_score", .null), ("score", .float (13 / 2)), ("must_haves", .null),
    ("must_have_results", .arr [entry true])]

end Sample

/-- It gives no signal, although it has a score and a must-have that is met. -/
theorem null_alternatives_hide :
    extractCvSignal Sample.numerics Sample.str Sample.nullAlternatives = .ok none ∧
      extractCvSignal Sample.numerics Sample.str
          (Dict.remove ["overall_score", "must_haves"] Sample.nullAlternatives) =
        .ok (some { score := some (13 / 2), mustAllMet := true, decision := "Approve" }) ∧
      ¬ ∀ output, NullMeansAbsent Sample.numerics Sample.str output := by
  have hnull : extractCvSignal Sample.numerics Sample.str Sample.nullAlternatives = .ok none := rfl
  have habsent : extractCvSignal Sample.numerics Sample.str
      (Dict.remove ["overall_score", "must_haves"] Sample.nullAlternatives) =
        .ok (some { score := some (13 / 2), mustAllMet := true, decision := "Approve" }) := rfl
  have hunset : UnsetKeys Sample.nullAlternatives ["overall_score", "must_haves"] := by
    intro key hkey
    rcases List.mem_pair.mp hkey with rfl | rfl
    · exact ⟨by simp [recognisedKeys], .null, rfl, rfl⟩
    · exact ⟨by simp [recognisedKeys], .null, rfl, rfl⟩
  refine ⟨hnull, habsent, fun h => ?_⟩
  have heq := h _ _ hunset
  rw [hnull, habsent] at heq
  cases heq

end TalentMatch
