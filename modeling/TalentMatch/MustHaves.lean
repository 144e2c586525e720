import TalentMatch.Aggregation

/-!
# The must-have requirements of a CV

An output lists its must-haves in one of three places: `must_haves`,
`must_have_results`, or the checklist of its eligibility. `_extract_cv_signal` reads
one of them, and `_aggregate_cv_scoring` combines what the outputs of a CV say.

Results:
1. `extractCvSignal_of_met`: the signal of an output whose must-haves can be read.
2. `mustHaveResult_of_unmet`: an entry that is not met, in the place that is read,
   makes the result of the CV negative.
3. `unmet_elsewhere_hidden`: one in another place does not.
-/

namespace TalentMatch

variable {φ : Type}

/-! ## 1. Entries -/

section Entries
variable (num : Numerics φ)

/-- `bool(m.get("met"))`. -/
def isMet (m : Fields φ) : Bool := (valueAt m "met").truthy num.isZero

/-- `output.get("must_haves", output.get("must_have_results", []) or [])`. -/
def firstMustHaves (output : Fields φ) : Json φ :=
  match Dict.get? output "must_haves" with
  | some v => v
  | none => orValue num ((Dict.get? output "must_have_results").getD (.arr [])) (.arr [])

/-- The objects of the checklist, or `first` where there is no checklist. -/
def checklistOr (output : Fields φ) (first : Json φ) : Json φ :=
  match Dict.get? (objectAt output "eligibility") "requirements_checklist" with
  | some (.obj entries) =>
    .arr ((entries.map Prod.snd).filter fun v => match v with | .obj _ => true | _ => false)
  | _ => first

/-- What `must_haves` and `must_have_results` hold, if anything, is a list of
objects. -/
def EntriesAreObjects (output : Fields φ) : Prop :=
  ∀ name ∈ ["must_haves", "must_have_results"], (valueAt output name).truthy num.isZero = true →
    ∃ entries : List (Fields φ), valueAt output name = .arr (entries.map .obj)

/-- Some object among the values is not met. -/
def Unmet (values : List (Json φ)) : Prop := ∃ m, .obj m ∈ values ∧ isMet num m = false

/-- One of the three places of an output lists an entry that is not met. -/
inductive UnmetListed (output : Fields φ) : Prop
  | mustHaves {items : List (Json φ)} :
      Dict.get? output "must_haves" = some (.arr items) → Unmet num items → UnmetListed output
  | mustHaveResults {items : List (Json φ)} :
      Dict.get? output "must_have_results" = some (.arr items) → Unmet num items →
      UnmetListed output
  | checklist {entries : Fields φ} :
      Dict.get? (objectAt output "eligibility") "requirements_checklist" = some (.obj entries) →
      Unmet num (entries.map Prod.snd) → UnmetListed output

/-- The place that is read does: `must_haves`; `must_have_results` of an output without
`must_haves`; the checklist where there is nothing in either. -/
inductive UnmetRead (output : Fields φ) : Prop
  | mustHaves {items : List (Json φ)} :
      Dict.get? output "must_haves" = some (.arr items) → Unmet num items → UnmetRead output
  | mustHaveResults {items : List (Json φ)} :
      Dict.get? output "must_haves" = none →
      Dict.get? output "must_have_results" = some (.arr items) → Unmet num items → UnmetRead output
  | checklist {entries : Fields φ} :
      (valueAt output "must_haves").truthy num.isZero = false →
      (valueAt output "must_have_results").truthy num.isZero = false →
      Dict.get? (objectAt output "eligibility") "requirements_checklist" = some (.obj entries) →
      Unmet num (entries.map Prod.snd) → UnmetRead output

/-- The signal of an output, once the must-haves are known. -/
def signalOf (str : Json φ → String) (output : Fields φ) (met : Bool) (score : Option φ) :
    CvSignal φ where
  score := score
  mustAllMet := met
  decision :=
    if positiveDecisions.contains (decisionRaw num str output) then "Approve"
    else if negativeDecisions.contains (decisionRaw num str output) then "Reject"
    else if met then "Approve" else "Reject"

end Entries

namespace MustHavesLemmas

variable {num : Numerics φ} {str : Json φ → String}

theorem truthy_of_mem {items : List (Json φ)} {v : Json φ} (h : v ∈ items) :
    (Json.arr items).truthy num.isZero = true := by
  cases items with
  | nil => cases h
  | cons w items => rfl

/-- Filtering the objects of a list. -/
theorem exists_objects (values : List (Json φ)) :
    ∃ entries : List (Fields φ),
      (values.filter fun v => match v with | .obj _ => true | _ => false) = entries.map .obj := by
  induction values with
  | nil => exact ⟨[], rfl⟩
  | cons v values ih =>
    obtain ⟨entries, h⟩ := ih
    cases v with
    | obj m => exact ⟨m :: entries, by rw [List.filter_cons_of_pos rfl, h, List.map_cons]⟩
    | null | bool | int | float | str | arr =>
      exact ⟨entries, by rw [List.filter_cons_of_neg (by simp), h]⟩

/-- The checklist is read where the first two places hold nothing. -/
theorem mustHaves_eq (num : Numerics φ) (output : Fields φ) :
    mustHaves num output =
      if (firstMustHaves num output).truthy num.isZero then firstMustHaves num output
      else checklistOr output (firstMustHaves num output) := rfl

/-- What the first two places hold, if anything, is the value of one of them. -/
theorem firstMustHaves_of_truthy {output : Fields φ}
    (h : (firstMustHaves num output).truthy num.isZero = true) :
    firstMustHaves num output = valueAt output "must_haves" ∨
      firstMustHaves num output = valueAt output "must_have_results" := by
  unfold firstMustHaves at h ⊢
  cases hmust : Dict.get? output "must_haves" with
  | some v => exact .inl (by simp [valueAt, hmust])
  | none =>
    rw [hmust] at h
    simp only [orValue] at h ⊢
    split at h
    · next hresults =>
      rw [if_pos hresults]
      cases hres : Dict.get? output "must_have_results" with
      | none =>
        rw [hres] at hresults
        cases hresults
      | some v => exact .inr (by simp [valueAt, hres])
    · cases h

/-- What is read from the places is a list of objects, when it is anything. -/
theorem mustHaves_objects {output : Fields φ} (h : EntriesAreObjects num output)
    (htrue : (mustHaves num output).truthy num.isZero = true) :
    ∃ entries : List (Fields φ), mustHaves num output = .arr (entries.map .obj) := by
  rw [mustHaves_eq] at htrue ⊢
  split
  · next hfirst =>
    rcases firstMustHaves_of_truthy hfirst with heq | heq
    · rw [heq] at hfirst ⊢
      exact h "must_haves" (by simp) hfirst
    · rw [heq] at hfirst ⊢
      exact h "must_have_results" (by simp) hfirst
  · next hfirst =>
    rw [if_neg hfirst] at htrue
    unfold checklistOr at htrue ⊢
    split
    · exact (exists_objects _).imp fun entries he => congrArg Json.arr he
    · next hnone =>
      split at htrue
      · next entries hsome => exact absurd hsome (hnone entries)
      · exact absurd htrue hfirst

/-- The conjunction over a list of objects. -/
theorem metAll_objects (entries : List (Fields φ)) :
    metAll num (entries.map .obj) = .ok (entries.all (isMet num)) := by
  induction entries with
  | nil => rfl
  | cons m entries ih =>
    rw [List.map_cons, metAll, List.all_cons, ← isMet]
    cases isMet num m with
    | true => exact ih
    | false => rfl

/-- The signal of an output whose must-haves can be read. -/
theorem extractCvSignal_of_met {output : Fields φ} {met : Bool}
    (h : mustAllMet num (mustHaves num output) (decisionRaw num str output) = .ok met) :
    extractCvSignal num str output =
      if isBlank num
          (effectiveScore num (rawScore output) (textOf num str (valueAt output "status")))
          (mustHaves num output) (decisionRaw num str output)
          (textOf num str (valueAt output "status")) then .ok none
      else
        (readScore num
          (effectiveScore num (rawScore output) (textOf num str (valueAt output "status")))).map
            fun score => some (signalOf num str output met score) := by
  simp only [extractCvSignal, h]
  split
  · rfl
  · split <;> next hs => rw [hs]; rfl

/-- Must-haves that are objects can be read. -/
theorem exists_mustAllMet {output : Fields φ} (h : EntriesAreObjects num output)
    (decision : String) : ∃ met, mustAllMet num (mustHaves num output) decision = .ok met := by
  unfold mustAllMet
  split
  · next htrue =>
    obtain ⟨entries, he⟩ := mustHaves_objects h htrue
    rw [he]
    exact ⟨_, metAll_objects entries⟩
  · exact ⟨_, rfl⟩

/-- An output with must-haves is not blank. -/
theorem isBlank_of_truthy {must : Json φ} (h : must.truthy num.isZero = true) (score : Json φ)
    (decision status : String) : isBlank num score must decision status = false := by
  unfold isBlank
  rw [h, Bool.not_true, Bool.and_false, Bool.false_and, Bool.false_and]

theorem readScore_ok_or_overflow (num : Numerics φ) (score : Json φ) :
    (∃ s, readScore num score = .ok s) ∨ readScore num score = .error .overflowError := by
  cases score with
  | int i =>
    rw [readScore]
    split
    · exact .inl ⟨_, rfl⟩
    · exact .inr rfl
  | bool b =>
    rw [readScore]
    split
    · exact .inl ⟨_, rfl⟩
    · exact .inr rfl
  | null | float | str | arr | obj => exact .inl ⟨_, rfl⟩

/-- An output whose entries are objects gives a signal or none, unless its score
overflows. -/
theorem extractCvSignal_objects {output : Fields φ} (h : EntriesAreObjects num output) :
    (∃ signal, extractCvSignal num str output = .ok signal) ∨
      extractCvSignal num str output = .error .overflowError := by
  obtain ⟨met, hmet⟩ := exists_mustAllMet h (decisionRaw num str output)
  rw [extractCvSignal_of_met hmet]
  split
  · exact .inl ⟨none, rfl⟩
  · rcases readScore_ok_or_overflow num (effectiveScore num (rawScore output)
        (textOf num str (valueAt output "status"))) with ⟨s, hs⟩ | hs
    · exact .inl ⟨_, by rw [hs]; rfl⟩
    · exact .inr (by rw [hs]; rfl)

theorem scoreVariance_ok_or_overflow (num : Numerics φ) (scores : List φ) :
    (∃ x, scoreVariance num scores = .ok x) ∨ scoreVariance num scores = .error .overflowError := by
  unfold scoreVariance
  split
  · split
    · exact .inl ⟨_, rfl⟩
    · exact .inr rfl
  · exact .inl ⟨_, rfl⟩

/-- The place that is read is the one whose entries count. -/
theorem mustHaves_of_unmetRead {output : Fields φ} (h : UnmetRead num output) :
    ∃ items, mustHaves num output = .arr items ∧ Unmet num items := by
  rw [mustHaves_eq]
  cases h with
  | @mustHaves items hmust hunmet =>
    have hfirst : firstMustHaves num output = .arr items := by simp only [firstMustHaves, hmust]
    obtain ⟨m, hm, hmet⟩ := hunmet
    rw [hfirst, if_pos (truthy_of_mem hm)]
    exact ⟨items, rfl, m, hm, hmet⟩
  | @mustHaveResults items hmust hresults hunmet =>
    obtain ⟨m, hm, hmet⟩ := hunmet
    have htrue : (Json.arr items).truthy num.isZero = true := truthy_of_mem hm
    have hfirst : firstMustHaves num output = .arr items := by
      simp only [firstMustHaves, hmust, hresults, Option.getD_some, orValue, if_pos htrue]
    rw [hfirst, if_pos htrue]
    exact ⟨items, rfl, m, hm, hmet⟩
  | @checklist entries hmust hresults hlist hunmet =>
    obtain ⟨m, hm, hmet⟩ := hunmet
    have hfirst : (firstMustHaves num output).truthy num.isZero ≠ true := by
      intro htrue
      rcases firstMustHaves_of_truthy htrue with heq | heq
      · rw [heq, hmust] at htrue
        cases htrue
      · rw [heq, hresults] at htrue
        cases htrue
    rw [if_neg hfirst, checklistOr, hlist]
    exact ⟨_, rfl, m, List.mem_filter.mpr ⟨hm, rfl⟩, hmet⟩

/-- An output with an entry that is not met gives a negative signal. -/
theorem extractCvSignal_of_unmetRead {output : Fields φ} (hobj : EntriesAreObjects num output)
    (h : UnmetRead num output) :
    (∃ signal, extractCvSignal num str output = .ok (some signal) ∧ signal.mustAllMet = false) ∨
      extractCvSignal num str output = .error .overflowError := by
  obtain ⟨items, hmust, m, hm, hmet⟩ := mustHaves_of_unmetRead h
  have htrue : (mustHaves num output).truthy num.isZero = true := by
    rw [hmust]
    exact truthy_of_mem hm
  have hfalse : mustAllMet num (mustHaves num output) (decisionRaw num str output) = .ok false := by
    obtain ⟨entries, he⟩ := mustHaves_objects hobj htrue
    rw [hmust] at he
    cases he
    obtain ⟨m', hm', heq⟩ := List.mem_map.mp hm
    cases heq
    rw [mustAllMet, if_pos htrue, hmust, allMet, metAll_objects]
    exact congrArg Except.ok (List.all_eq_false.mpr ⟨m, hm', by simp [hmet]⟩)
  rw [extractCvSignal_of_met hfalse, isBlank_of_truthy htrue, if_neg Bool.false_ne_true]
  rcases readScore_ok_or_overflow num (effectiveScore num (rawScore output)
      (textOf num str (valueAt output "status"))) with ⟨s, hs⟩ | hs
  · rw [hs]
    exact .inl ⟨_, rfl, rfl⟩
  · rw [hs]
    exact .inr rfl

end MustHavesLemmas

open MustHavesLemmas

/-! ## 2. An entry that is not met -/

section Unmet
variable {num : Numerics φ} {str : Json φ → String} {order : SetOrder}

/-- An entry that is not met, in the place that is read of one of the outputs, makes
the result of the CV negative, unless a score overflows. -/
theorem mustHaveResult_of_unmet {outputs : List (Fields φ)}
    (hobj : ∀ output ∈ outputs, EntriesAreObjects num output)
    (h : ∃ output ∈ outputs, UnmetRead num output) (sourceArtifacts : List SourceArtifact) :
    aggregateCvScoring num str order outputs sourceArtifacts = .error .overflowError ∨
      ∃ a, aggregateCvScoring num str order outputs sourceArtifacts = .ok (some a) ∧
        a.mustHaveResult = false := by
  obtain ⟨output, ho, hunmet⟩ := h
  cases hall : outputs.mapM (extractCvSignal num str) with
  | error e =>
    obtain ⟨output', ho', he⟩ := Search.exists_of_mapM_error hall
    rcases extractCvSignal_objects (hobj output' ho') with ⟨signal, hok⟩ | hover
    · rw [hok] at he
      cases he
    · rw [hover] at he
      cases he
      exact .inl (aggregateCvScoring_of_error sourceArtifacts hall)
  | ok signals =>
    have hmem : extractCvSignal num str output ∈ signals.map Except.ok := by
      rw [← Search.map_of_mapM_ok hall]
      exact List.mem_map_of_mem ho
    rcases extractCvSignal_of_unmetRead (hobj output ho) hunmet with ⟨signal, hok, hmet⟩ | hover
    · have hin : signal ∈ signals.filterMap id := by
        rw [hok] at hmem
        obtain ⟨signal', hs, heq⟩ := List.mem_map.mp hmem
        cases heq
        exact List.mem_filterMap.mpr ⟨_, hs, rfl⟩
      have hne : (signals.filterMap id).isEmpty = false := by
        cases hnil : signals.filterMap id with
        | nil =>
          rw [hnil] at hin
          cases hin
        | cons _ _ => rfl
      rw [aggregateCvScoring_of_ok sourceArtifacts hall, hne, if_neg Bool.false_ne_true,
        aggregateSignals]
      rcases scoreVariance_ok_or_overflow num ((signals.filterMap id).filterMap CvSignal.score) with
        ⟨x, hx⟩ | hx
      · simp only [hx]
        refine .inr ⟨_, rfl, ?_⟩
        exact List.all_eq_false.mpr ⟨signal, hin, by simp [hmet]⟩
      · simp only [hx]
        exact .inl rfl
    · rw [hover] at hmem
      obtain ⟨_, _, heq⟩ := List.mem_map.mp hmem
      cases heq

end Unmet

namespace Sample

/-- An entry of a list of must-haves. -/
def entry (met : Bool) : Json ℚ := .obj [("met", .bool met)]

/-- Everything in `must_haves` is met, something in `must_have_results` is not. -/
def hiddenOutput : Fields ℚ :=
  [("must_haves", .arr [entry true]), ("must_have_results", .arr [entry false])]

/-- A must-have that is not met. -/
def unmetOutput : Fields ℚ := [("score", .int 90), ("must_haves", .arr [entry true, entry false])]

theorem entriesAreObjects_hiddenOutput : EntriesAreObjects numerics hiddenOutput := by
  intro name hname _
  simp only [List.mem_cons, List.not_mem_nil, or_false] at hname
  rcases hname with rfl | rfl
  · exact ⟨[[("met", .bool true)]], rfl⟩
  · exact ⟨[[("met", .bool false)]], rfl⟩

theorem entriesAreObjects_unmetOutput : EntriesAreObjects numerics unmetOutput := by
  intro name hname htrue
  simp only [List.mem_cons, List.not_mem_nil, or_false] at hname
  rcases hname with rfl | rfl
  · exact ⟨[[("met", .bool true)], [("met", .bool false)]], rfl⟩
  · cases htrue

end Sample

theorem mustHaveResult_of_unmet_sample :
    aggregateCvScoring Sample.numerics Sample.str Sample.setOrder [Sample.unmetOutput] [] =
        .error .overflowError ∨
      ∃ a, aggregateCvScoring Sample.numerics Sample.str Sample.setOrder [Sample.unmetOutput] [] =
          .ok (some a) ∧ a.mustHaveResult = false := by
  apply mustHaveResult_of_unmet
  · intro output ho
    rw [List.mem_singleton.mp ho]
    exact Sample.entriesAreObjects_unmetOutput
  · exact ⟨_, List.mem_singleton_self _, .mustHaves rfl
      ⟨[("met", .bool false)], List.mem_cons_of_mem _ (List.mem_singleton_self _), rfl⟩⟩

/-- An entry that is not met in another place than the one that is read has no
effect. -/
theorem unmet_elsewhere_hidden :
    ¬ ∀ outputs : List (Fields ℚ),
        (∀ output ∈ outputs, EntriesAreObjects Sample.numerics output) →
        (∃ output ∈ outputs, UnmetListed Sample.numerics output ∧
          ∃ signal, extractCvSignal Sample.numerics Sample.str output = .ok (some signal)) →
        ∃ a, aggregateCvScoring Sample.numerics Sample.str Sample.setOrder outputs [] =
          .ok (some a) ∧ a.mustHaveResult = false := by
  intro h
  obtain ⟨a, ha, hfalse⟩ := h [Sample.hiddenOutput]
    (fun output ho => by
      rw [List.mem_singleton.mp ho]
      exact Sample.entriesAreObjects_hiddenOutput)
    ⟨_, List.mem_singleton_self _, .mustHaveResults rfl ⟨_, List.mem_singleton_self _, rfl⟩,
      ⟨none, true, "Approve"⟩, rfl⟩
  have hresult : aggregateCvScoring Sample.numerics Sample.str Sample.setOrder
      [Sample.hiddenOutput] [] = .ok (some ⟨none, 0, some "Approve", true, [], 1⟩) := rfl
  rw [hresult] at ha
  cases ha
  cases hfalse

end TalentMatch
