import TalentMatch.Decision
import TalentMatch.MustHaves

/-!
# Outputs whose must-haves fail

The same outputs before and after the `met` of some entries has changed from true to
false, in any of the places that list must-haves. What is chosen by the presence of a
key or by a list being empty stays the same; what is left is a conjunction and a vote.

Results:
1. `mustAllMet_fails`: must-haves that were not all met are not afterwards.
2. `extractCvSignal_fails`: the signal of an output has the same score and is as good
   as before at most.
3. `aggregateCvScoring_fails`: the aggregate of a CV is as good as before at most, and
   its score, variance and number of runs are the same.
-/

namespace TalentMatch

open MustHavesLemmas

variable {φ : Type}

/-! ## 1. Outputs with failed entries -/

section Fails
variable (num : Numerics φ)

/-- An entry, and the same after its `met` may have become false. -/
inductive FailsEntry : Json φ → Json φ → Prop
  | same (v : Json φ) : FailsEntry v v
  | failed {m : Fields φ} {v : Json φ} : isMet num m = true → v.truthy num.isZero = false →
      FailsEntry (.obj m) (.obj (Dict.set m "met" v))

/-- A field of `eligibility`, with some entries of the checklist failed. -/
inductive FailsEligibility (key : String) : Json φ → Json φ → Prop
  | same (v : Json φ) : FailsEligibility key v v
  | checklist {entries entries' : Fields φ} : key = "requirements_checklist" →
      Dict.Related (fun _ => FailsEntry num) entries entries' →
      FailsEligibility key (.obj entries) (.obj entries')
  | listed {items items' : List (Json φ)} : key = "requirements_checklist" →
      List.Forall₂ (FailsEntry num) items items' →
      FailsEligibility key (.arr items) (.arr items')

/-- A field of an output, with some entries failed. -/
inductive FailsField (key : String) : Json φ → Json φ → Prop
  | same (v : Json φ) : FailsField key v v
  | listed {items items' : List (Json φ)} : key = "must_haves" ∨ key = "must_have_results" →
      List.Forall₂ (FailsEntry num) items items' → FailsField key (.arr items) (.arr items')
  | eligibility {fields fields' : Fields φ} : key = "eligibility" →
      Dict.Related (FailsEligibility num) fields fields' →
      FailsField key (.obj fields) (.obj fields')

/-- An output, and the same with the `met` of any of its entries changed from true to
false. -/
def Fails (output output' : Fields φ) : Prop := Dict.Related (FailsField num) output output'

/-- A signal that is as good as before at most. -/
structure SignalNoBetter (signal signal' : CvSignal φ) : Prop where
  score : signal'.score = signal.score
  mustAllMet : signal.mustAllMet = false → signal'.mustAllMet = false
  decision : signal'.decision = signal.decision ∨
    (signal.decision = "Approve" ∧ signal'.decision = "Reject")

/-- An aggregate that is as good as before at most. -/
structure AggregateNoBetter (a a' : CvAggregate φ) : Prop where
  mustHaveResult : a.mustHaveResult = false → a'.mustHaveResult = false
  finalDecision : a.finalDecision = some "Reject" → a'.finalDecision = some "Reject"
  finalScore : a'.finalScore = a.finalScore
  variance : a'.variance = a.variance
  runsCount : a'.runsCount = a.runsCount

end Fails

/-! ## 2. The signal of one output -/

namespace FailedEntriesLemmas

variable {num : Numerics φ} {str : Json φ → String} {order : SetOrder} {output output' : Fields φ}

theorem get?_fails (h : Fails num output output') (key : String)
    (hkey : key ≠ "must_haves" ∧ key ≠ "must_have_results" ∧ key ≠ "eligibility") :
    Dict.get? output' key = Dict.get? output key := by
  rcases Dict.get?_related h key with ⟨hnone, hnone'⟩ | ⟨v, v', hv, hv', hfails⟩
  · rw [hnone, hnone']
  · rw [hv, hv']
    cases hfails with
    | same => rfl
    | listed hlist => exact absurd hlist (not_or.mpr ⟨hkey.1, hkey.2.1⟩)
    | eligibility heq => exact absurd heq hkey.2.2

theorem valueAt_fails (h : Fails num output output') (key : String)
    (hkey : key ≠ "must_haves" ∧ key ≠ "must_have_results" ∧ key ≠ "eligibility") :
    valueAt output' key = valueAt output key := by
  rw [valueAt, valueAt, get?_fails h key hkey]

/-- The eligibility of both outputs has the same fields, but for the entries of the
checklist. -/
theorem eligibility_fails (h : Fails num output output') :
    Dict.Related (FailsEligibility num) (objectAt output "eligibility")
      (objectAt output' "eligibility") := by
  have hrefl : ∀ fields : Fields φ, Dict.Related (FailsEligibility num) fields fields :=
    fun fields => List.forall₂_same.mpr fun _ _ => ⟨rfl, .same _⟩
  unfold objectAt
  rcases Dict.get?_related h "eligibility" with ⟨hnone, hnone'⟩ | ⟨v, v', hv, hv', hfails⟩
  · rw [hnone, hnone']
    exact hrefl []
  · rw [hv, hv']
    cases hfails with
    | same => exact hrefl _
    | listed hlist => exact absurd hlist (by decide)
    | eligibility _ hfields => exact hfields

theorem rawScore_fails (h : Fails num output output') : rawScore output' = rawScore output := by
  have hoverall := get?_fails h "overall_score" (by decide)
  have hscore := valueAt_fails h "score" (by decide)
  have hcomposite := get?_fails h "composite_score" (by decide)
  simp only [rawScore, objectAt, hoverall, hscore, hcomposite]

theorem decisionRaw_fails (h : Fails num output output') :
    decisionRaw num str output' = decisionRaw num str output := by
  have hdecision := valueAt_fails h "decision" (by decide)
  have hfinal := valueAt_fails h "final_decision" (by decide)
  have hstatus : valueAt (objectAt output' "eligibility") "status" =
      valueAt (objectAt output "eligibility") "status" := by
    unfold valueAt
    rcases Dict.get?_related (eligibility_fails h) "status" with
      ⟨hnone, hnone'⟩ | ⟨v, v', hv, hv', hfails⟩
    · rw [hnone, hnone']
    · rw [hv, hv']
      cases hfails with
      | same => rfl
      | checklist hkey => exact absurd hkey (by decide)
      | listed hkey => exact absurd hkey (by decide)
  simp only [decisionRaw, hdecision, hfinal, hstatus]

/-- A failed list of objects is one, and no entry of it is met that was not. -/
theorem objects_failed {entries : List (Fields φ)} {items' : List (Json φ)}
    (h : List.Forall₂ (FailsEntry num) (entries.map .obj) items') :
    ∃ entries' : List (Fields φ), items' = entries'.map .obj ∧
      (entries.all (isMet num) = false → entries'.all (isMet num) = false) := by
  induction entries generalizing items' with
  | nil =>
    cases h
    exact ⟨[], rfl, id⟩
  | cons m entries ih =>
    cases h with
    | cons hm hrest =>
      obtain ⟨entries', rfl, hall⟩ := ih hrest
      cases hm with
      | same =>
        refine ⟨m :: entries', rfl, fun hfalse => ?_⟩
        rw [List.all_cons] at hfalse ⊢
        rcases Bool.and_eq_false_iff.mp hfalse with hm | hrest
        · rw [hm, Bool.false_and]
        · rw [hall hrest, Bool.and_false]
      | @failed _ v _ hv =>
        refine ⟨Dict.set m "met" v :: entries', rfl, fun _ => ?_⟩
        rw [List.all_cons, isMet, valueAt, Dict.get?_set_self, Option.getD_some, hv, Bool.false_and]

/-- The objects among the values of a failed checklist. -/
theorem objects_of_checklist {entries entries' : Fields φ}
    (h : Dict.Related (fun _ => FailsEntry num) entries entries') :
    List.Forall₂ (FailsEntry num)
      ((entries.map Prod.snd).filter fun v => match v with | .obj _ => true | _ => false)
      ((entries'.map Prod.snd).filter fun v => match v with | .obj _ => true | _ => false) := by
  induction h with
  | nil => exact .nil
  | @cons p p' entries entries' hp _ ih =>
    obtain ⟨-, hfails⟩ := hp
    obtain ⟨key, v⟩ := p
    obtain ⟨key', v'⟩ := p'
    rw [List.map_cons, List.map_cons]
    cases hfails with
    | failed hm hv =>
      rw [List.filter_cons_of_pos rfl, List.filter_cons_of_pos rfl]
      exact .cons (.failed hm hv) ih
    | same =>
      cases v with
      | obj m =>
        rw [List.filter_cons_of_pos rfl, List.filter_cons_of_pos rfl]
        exact .cons (.same _) ih
      | null | bool | int | float | str | arr =>
        rw [List.filter_cons_of_neg (by simp), List.filter_cons_of_neg (by simp)]
        exact ih

/-- A value that counts as the must-haves, before and after. -/
inductive FailsValue (num : Numerics φ) : Json φ → Json φ → Prop
  | same (v : Json φ) : FailsValue num v v
  | listed {items items' : List (Json φ)} :
      List.Forall₂ (FailsEntry num) items items' → FailsValue num (.arr items) (.arr items')

theorem truthy_failed {v v' : Json φ} (h : FailsValue num v v') :
    v'.truthy num.isZero = v.truthy num.isZero := by
  cases h with
  | same => rfl
  | listed hlist => cases hlist <;> rfl

theorem get?_failed (h : Fails num output output') {key : String} (hkey : key ≠ "eligibility") :
    (Dict.get? output key = none ∧ Dict.get? output' key = none) ∨
      ∃ v v', Dict.get? output key = some v ∧ Dict.get? output' key = some v' ∧
        FailsValue num v v' := by
  rcases Dict.get?_related h key with hnone | ⟨v, v', hv, hv', hfails⟩
  · exact .inl hnone
  · refine .inr ⟨v, v', hv, hv', ?_⟩
    cases hfails with
    | same => exact .same _
    | listed _ hlist => exact .listed hlist
    | eligibility heq => exact absurd heq hkey

theorem firstMustHaves_fails (h : Fails num output output') :
    FailsValue num (firstMustHaves num output) (firstMustHaves num output') := by
  unfold firstMustHaves
  rcases get?_failed h (by decide : "must_haves" ≠ "eligibility") with
    ⟨hnone, hnone'⟩ | ⟨v, v', hv, hv', hfails⟩
  · rw [hnone, hnone']
    simp only [orValue]
    rcases get?_failed h (by decide : "must_have_results" ≠ "eligibility") with
      ⟨hres, hres'⟩ | ⟨v, v', hv, hv', hfails⟩
    · rw [hres, hres']
      exact .same _
    · rw [hv, hv', Option.getD_some, Option.getD_some, truthy_failed hfails]
      split
      · exact hfails
      · exact .same _
  · rw [hv, hv']
    exact hfails

theorem checklistOr_fails (h : Fails num output output') {first first' : Json φ}
    (hfirst : FailsValue num first first') :
    FailsValue num (checklistOr output first) (checklistOr output' first') := by
  unfold checklistOr
  rcases Dict.get?_related (eligibility_fails h) "requirements_checklist" with
    ⟨hnone, hnone'⟩ | ⟨v, v', hv, hv', hfails⟩
  · rw [hnone, hnone']
    exact hfirst
  · rw [hv, hv']
    cases hfails with
    | same =>
      split
      · exact .same _
      · exact hfirst
    | checklist _ hentries => exact .listed (objects_of_checklist hentries)
    | listed => exact hfirst

theorem mustHaves_fails (h : Fails num output output') :
    FailsValue num (mustHaves num output) (mustHaves num output') := by
  have hfirst := firstMustHaves_fails h
  rw [mustHaves_eq, mustHaves_eq, truthy_failed hfirst]
  split
  · exact hfirst
  · exact checklistOr_fails h hfirst

/-- Must-haves that were not all met are not after entries failed. -/
theorem mustAllMet_fails (h : Fails num output output') (hobj : EntriesAreObjects num output)
    (decision : String) :
    ∃ met met', mustAllMet num (mustHaves num output) decision = .ok met ∧
      mustAllMet num (mustHaves num output') decision = .ok met' ∧
      (met = false → met' = false) := by
  have hmust := mustHaves_fails h
  unfold mustAllMet
  rw [truthy_failed hmust]
  split
  · next htrue =>
    obtain ⟨entries, he⟩ := mustHaves_objects hobj htrue
    rw [he] at hmust ⊢
    rw [allMet, metAll_objects]
    generalize mustHaves num output' = must' at hmust
    cases hmust with
    | same => exact ⟨_, _, rfl, metAll_objects entries, id⟩
    | listed hlist =>
      obtain ⟨entries', rfl, hall⟩ := objects_failed hlist
      exact ⟨_, _, rfl, metAll_objects entries', hall⟩
  · exact ⟨_, _, rfl, rfl, id⟩

/-- An output with failed entries raises the same or gives a signal that is as good at
most. -/
theorem extractCvSignal_fails (h : Fails num output output') (hobj : EntriesAreObjects num output) :
    Search.SameOutcome (Option.Rel SignalNoBetter) (extractCvSignal num str output)
      (extractCvSignal num str output') := by
  have hdecision : decisionRaw num str output' = decisionRaw num str output := decisionRaw_fails h
  have hstatus := valueAt_fails h "status" (by decide)
  obtain ⟨met, met', hmet, hmet', hworse⟩ := mustAllMet_fails h hobj (decisionRaw num str output)
  have hmet' : mustAllMet num (mustHaves num output') (decisionRaw num str output') = .ok met' := by
    rw [hdecision]
    exact hmet'
  have htruthy := truthy_failed (mustHaves_fails h)
  rw [extractCvSignal_of_met hmet, extractCvSignal_of_met hmet', hdecision, hstatus,
    rawScore_fails h]
  have hblank : ∀ score : Json φ, ∀ decision status : String,
      isBlank num score (mustHaves num output') decision status =
        isBlank num score (mustHaves num output) decision status := by
    intro score decision status
    unfold isBlank
    rw [htruthy]
  rw [hblank]
  split
  · exact .ok .none
  · cases readScore num (effectiveScore num (rawScore output)
        (textOf num str (valueAt output "status"))) with
    | error e => exact .error e
    | ok score =>
      refine .ok (.some ⟨rfl, hworse, ?_⟩)
      simp only [signalOf, hdecision]
      split
      · exact .inl rfl
      · split
        · exact .inl rfl
        · cases met with
          | false =>
            rw [hworse rfl]
            exact .inl rfl
          | true =>
            cases met' with
            | false => exact .inr ⟨rfl, rfl⟩
            | true => exact .inl rfl

/-! ## 3. The aggregate -/

theorem decisions_moved {signals signals' : List (CvSignal φ)}
    (h : List.Forall₂ SignalNoBetter signals signals') :
    List.Forall₂ (Mode.Moved "Approve" "Reject") (signals.map CvSignal.decision)
      (signals'.map CvSignal.decision) := by
  rw [List.forall₂_map_left_iff, List.forall₂_map_right_iff]
  exact h.imp fun _ _ hs => hs.decision

theorem scores_noBetter {signals signals' : List (CvSignal φ)}
    (h : List.Forall₂ SignalNoBetter signals signals') :
    signals'.filterMap CvSignal.score = signals.filterMap CvSignal.score := by
  induction h with
  | nil => rfl
  | cons hs _ ih => rw [List.filterMap_cons, List.filterMap_cons, hs.score, ih]

theorem all_mustAllMet_noBetter {signals signals' : List (CvSignal φ)}
    (h : List.Forall₂ SignalNoBetter signals signals')
    (hall : signals.all CvSignal.mustAllMet = false) :
    signals'.all CvSignal.mustAllMet = false := by
  induction h with
  | nil => cases hall
  | cons hs _ ih =>
    rw [List.all_cons] at hall ⊢
    rcases Bool.and_eq_false_iff.mp hall with hfirst | hrest
    · rw [hs.mustAllMet hfirst, Bool.false_and]
    · rw [ih hrest, Bool.and_false]

/-- The aggregate of signals that are as good at most. -/
theorem aggregateSignals_noBetter (num : Numerics φ) (order : SetOrder)
    {signals signals' : List (CvSignal φ)} (h : List.Forall₂ SignalNoBetter signals signals')
    (sourceArtifacts : List SourceArtifact) :
    Search.SameOutcome AggregateNoBetter (aggregateSignals num order signals sourceArtifacts)
      (aggregateSignals num order signals' sourceArtifacts) := by
  have hscores := scores_noBetter h
  have hmoved := decisions_moved h
  simp only [aggregateSignals, hscores]
  split
  · exact .error _
  · refine .ok ?_
    exact
      { mustHaveResult := all_mustAllMet_noBetter h
        finalDecision := by
          simp only [DecisionLemmas.mostCommon_eq_firstMax]
          refine Mode.firstMax_of_moved (by decide) hmoved (order.perm _) (order.perm _) ?_
          exact fun heq => by rw [heq]
        finalScore := rfl
        variance := rfl
        runsCount := h.length_eq.symm }

end FailedEntriesLemmas

open FailedEntriesLemmas

section Aggregate
variable {num : Numerics φ} {str : Json φ → String} {order : SetOrder}

/-- Failing requirements never helps: the must-have result and the decision do not
improve, and the score, its variance and the number of runs stay the same. Where one of
the two raises or has no signal, so has the other. -/
theorem aggregateCvScoring_fails {outputs outputs' : List (Fields φ)}
    (h : List.Forall₂ (Fails num) outputs outputs')
    (hobj : ∀ output ∈ outputs, EntriesAreObjects num output)
    (sourceArtifacts : List SourceArtifact) :
    Search.SameOutcome (Option.Rel AggregateNoBetter)
      (aggregateCvScoring num str order outputs sourceArtifacts)
      (aggregateCvScoring num str order outputs' sourceArtifacts) := by
  have hsignals : Search.SameOutcome (List.Forall₂ (Option.Rel SignalNoBetter))
      (outputs.mapM (extractCvSignal num str)) (outputs'.mapM (extractCvSignal num str)) := by
    apply Search.sameOutcome_mapM
    induction h with
    | nil => exact .nil
    | @cons output output' outputs outputs' hfails _ ih =>
      refine .cons (extractCvSignal_fails hfails (hobj output List.mem_cons_self)) (ih ?_)
      exact fun o ho => hobj o (List.mem_cons_of_mem output ho)
  rw [aggregateCvScoring_eq_bind, aggregateCvScoring_eq_bind]
  refine hsignals.bind fun signals signals' hrel => ?_
  have hparsed : List.Forall₂ SignalNoBetter (signals.filterMap id) (signals'.filterMap id) :=
    List.rel_filterMap (fun _ _ hs => hs) hrel
  generalize signals.filterMap id = parsed at hparsed
  generalize signals'.filterMap id = parsed' at hparsed
  have hempty : parsed'.isEmpty = parsed.isEmpty := by cases hparsed <;> rfl
  rw [hempty]
  split
  · exact .ok .none
  · exact (aggregateSignals_noBetter num order hparsed sourceArtifacts).map fun _ _ hnb => .some hnb

end Aggregate

namespace Sample

/-- The output whose second must-have is not met in `unmetOutput`. -/
def metOutput : Fields ℚ := [("score", .int 90), ("must_haves", .arr [entry true, entry true])]

theorem entriesAreObjects_metOutput : EntriesAreObjects numerics metOutput := by
  intro name hname htrue
  simp only [List.mem_cons, List.not_mem_nil, or_false] at hname
  rcases hname with rfl | rfl
  · exact ⟨[[("met", .bool true)], [("met", .bool true)]], rfl⟩
  · cases htrue

theorem fails_metOutput : Fails numerics metOutput unmetOutput := by
  have hentries : List.Forall₂ (FailsEntry numerics) [entry true, entry true]
      [entry true, entry false] :=
    .cons (.same _) (.cons (.failed (v := .bool false) rfl rfl) .nil)
  exact .cons ⟨rfl, .same _⟩ (.cons ⟨rfl, .listed (.inl rfl) hentries⟩ .nil)

end Sample

theorem aggregateCvScoring_fails_sample :
    Search.SameOutcome (Option.Rel AggregateNoBetter)
      (aggregateCvScoring Sample.numerics Sample.str Sample.setOrder [Sample.metOutput] [])
      (aggregateCvScoring Sample.numerics Sample.str Sample.setOrder [Sample.unmetOutput] []) := by
  apply aggregateCvScoring_fails (.cons Sample.fails_metOutput .nil)
  intro output ho
  rw [List.mem_singleton.mp ho]
  exact Sample.entriesAreObjects_metOutput

end TalentMatch
