import Mathlib.Data.List.Find
import TalentMatch.Lib.PathText
import TalentMatch.Aggregation

/-!
# Numeric fields by path

The profile `generic_passthrough` of `runtime/aggregation/shared.py`. It aggregates every
number of the outputs under a path, the text of the keys and indices that lead to it.
Nothing in a key is escaped.

Results:
1. `extractNumericPaths_eq`: the numbers are assigned in the order of their positions.
2. `extractFaithful_iff`: an output has one entry for each number exactly when its
   numbers convert and no two of their positions are confusable.
3. `aggregateFaithful_iff`: the outputs of a CV are aggregated position by position
   exactly when, in addition, different positions of two outputs are not confusable.
4. `dotted_key_merged`: a key with a dot can be confused.
5. `aggregateFaithful_of_plain`: keys without separators cannot.
-/

namespace TalentMatch

open PathText

variable {φ : Type}

/-! ## 1. Extraction -/

section Extraction
variable (num : Numerics φ)

mutual

/-- `visit`, where `float` of an integer may overflow. -/
def visit : Json φ → String → List (String × φ) → Except AggregateError (List (String × φ))
  | .obj fields, path, result => visitFields fields path result
  | .arr items, path, result => visitItems items 0 path result
  | .int i, path, result =>
    match num.ofInt i with
    | some x => .ok (Dict.set result path x)
    | none => .error .overflowError
  | .float x, path, result => .ok (Dict.set result path x)
  | .null, _, result => .ok result
  | .bool _, _, result => .ok result
  | .str _, _, result => .ok result
termination_by structural node => node

/-- The loop over the entries of an object. -/
def visitFields : List (String × Json φ) → String → List (String × φ) →
    Except AggregateError (List (String × φ))
  | [], _, result => .ok result
  | (key, value) :: fields, path, result =>
    match visit value (extend path (.key key)) result with
    | .error e => .error e
    | .ok result => visitFields fields path result
termination_by structural fields => fields

/-- The loop over the elements of an array, from an index on. -/
def visitItems : List (Json φ) → Nat → String → List (String × φ) →
    Except AggregateError (List (String × φ))
  | [], _, _, result => .ok result
  | value :: items, index, path, result =>
    match visit value (extend path (.index index)) result with
    | .error e => .error e
    | .ok result => visitItems items (index + 1) path result
termination_by structural items => items

end

/-- `_extract_numeric_paths`. -/
def extractNumericPaths (output : Fields φ) : Except AggregateError (List (String × φ)) :=
  visit num (.obj output) "" []

/-- `numeric_by_path`. -/
def numericByPath (outputs : List (Fields φ)) : Except AggregateError (List (String × List φ)) :=
  outputs.foldlM
    (fun groups output =>
      (extractNumericPaths num output).map fun entries =>
        entries.foldl (fun groups p => Dict.append groups p.1 p.2) groups)
    []

end Extraction

def genericProfile : String := "generic_passthrough"

/-- What `_aggregate_generic` returns. -/
structure GenericAggregate (φ : Type) where
  profile : String
  method : String
  runCount : Nat
  fieldAggregations : List (String × φ)
  sourceArtifacts : List SourceArtifact

/-- `_aggregate_generic`. -/
def aggregateGeneric (num : Numerics φ) (aggregateValues : List φ → String → φ)
    (outputs : List (Fields φ)) (method : String) (sourceArtifacts : Option (List SourceArtifact)) :
    Except AggregateError (Option (GenericAggregate φ)) :=
  if outputs.isEmpty then .ok none
  else
    (numericByPath num outputs).map fun groups =>
      some
        { profile := genericProfile
          method := method
          runCount := outputs.length
          fieldAggregations := Dict.ofPairs (groups.map fun p => (p.1, aggregateValues p.2 method))
          sourceArtifacts := sourceArtifacts.getD [] }

/-! ## 2. Numbers and their positions -/

/-- A number in a JSON value. It has no value where `float` overflows. -/
structure Leaf (φ : Type) where
  position : List Step
  value : Option φ

/-- The leaf, seen from one step above. -/
def Leaf.under (s : Step) (leaf : Leaf φ) : Leaf φ where
  position := s :: leaf.position
  value := leaf.value

section Leaves
variable (num : Numerics φ)

mutual

/-- The numbers of a JSON value other than booleans. -/
def leaves : Json φ → List (Leaf φ)
  | .obj fields => leavesOfFields fields
  | .arr items => leavesOfItems items 0
  | .int i => [⟨[], num.ofInt i⟩]
  | .float x => [⟨[], some x⟩]
  | .null => []
  | .bool _ => []
  | .str _ => []
termination_by structural node => node

def leavesOfFields : List (String × Json φ) → List (Leaf φ)
  | [] => []
  | (key, value) :: fields => (leaves value).map (.under (.key key)) ++ leavesOfFields fields
termination_by structural fields => fields

def leavesOfItems : List (Json φ) → Nat → List (Leaf φ)
  | [], _ => []
  | value :: items, index =>
    (leaves value).map (.under (.index index)) ++ leavesOfItems items (index + 1)
termination_by structural items => items

end

/-- What an output has at a position, if it is a number. -/
def leafAt (output : Fields φ) (position : List Step) : Option (Option φ) :=
  ((leaves num (.obj output)).find? fun leaf => leaf.position == position).map Leaf.value

/-- Every number of an output has its own path, and the result has its value there. -/
structure ExtractFaithful (output : Fields φ) : Prop where
  distinct : ((leaves num (.obj output)).map fun leaf => spell leaf.position).Nodup
  entries : ∃ result, extractNumericPaths num output = .ok result ∧
    result.map (fun p => (p.1, some p.2)) =
      (leaves num (.obj output)).map fun leaf => (spell leaf.position, leaf.value)

/-- The values are those at one position of the outputs, which has this path. -/
def FromOnePosition (outputs : List (Fields φ)) (path : String) (values : List φ) : Prop :=
  ∃ position, spell position = path ∧
    values.map some = outputs.filterMap fun output => leafAt num output position

/-- Under each path stand the values of one position, and their aggregate. -/
structure AggregateFaithful (aggregateValues : List φ → String → φ) (outputs : List (Fields φ)) :
    Prop where
  extracted : ∀ output ∈ outputs, ExtractFaithful num output
  grouped : ∃ groups, numericByPath num outputs = .ok groups ∧
    ∀ path values, (path, values) ∈ groups → FromOnePosition num outputs path values
  aggregated : ∀ method sourceArtifacts a,
    aggregateGeneric num aggregateValues outputs method sourceArtifacts = .ok (some a) →
      ∀ path x, (path, x) ∈ a.fieldAggregations →
        ∃ values, FromOnePosition num outputs path values ∧ x = aggregateValues values method

mutual

/-- The keys of each object in a value are distinct, as those of a dictionary are. -/
def DistinctKeys : Json φ → Prop
  | .obj fields => (Dict.keys fields).Nodup ∧ DistinctKeysOfFields fields
  | .arr items => DistinctKeysOfItems items
  | .int _ => True
  | .float _ => True
  | .null => True
  | .bool _ => True
  | .str _ => True
termination_by structural node => node

def DistinctKeysOfFields : List (String × Json φ) → Prop
  | [] => True
  | (_, value) :: fields => DistinctKeys value ∧ DistinctKeysOfFields fields
termination_by structural fields => fields

def DistinctKeysOfItems : List (Json φ) → Prop
  | [] => True
  | value :: items => DistinctKeys value ∧ DistinctKeysOfItems items
termination_by structural items => items

end

/-- The numbers of an output convert, and no two of their positions are confusable. -/
def Separate (output : Fields φ) : Prop :=
  (∀ leaf ∈ leaves num (.obj output), leaf.value.isSome) ∧
    (leaves num (.obj output)).Pairwise fun a b => ¬ Confusable a.position b.position

/-- Nor are the different positions of numbers of any two outputs. -/
def Aligned (outputs : List (Fields φ)) : Prop :=
  ∀ output ∈ outputs, ∀ output' ∈ outputs,
    ∀ a ∈ leaves num (.obj output), ∀ b ∈ leaves num (.obj output'),
      a.position ≠ b.position → ¬ Confusable a.position b.position

end Leaves

namespace NumericPathsLemmas

variable {num : Numerics φ}

/-- Assigning the values of leaves below a path, in their order. -/
def assign (path : String) :
    List (Leaf φ) → List (String × φ) → Except AggregateError (List (String × φ))
  | [], result => .ok result
  | leaf :: rest, result =>
    match leaf.value with
    | some x => assign path rest (Dict.set result (leaf.position.foldl extend path) x)
    | none => .error .overflowError

theorem assign_append (path : String) (ls ls' : List (Leaf φ)) (result : List (String × φ)) :
    assign path (ls ++ ls') result = (assign path ls result).bind (assign path ls') := by
  induction ls generalizing result with
  | nil => rfl
  | cons leaf ls ih =>
    simp only [List.cons_append, assign]
    cases leaf.value with
    | none => rfl
    | some x => exact ih _

/-- Leaves one step further down. -/
theorem assign_under (path : String) (s : Step) (ls : List (Leaf φ)) (result : List (String × φ)) :
    assign path (ls.map (.under s)) result = assign (extend path s) ls result := by
  induction ls generalizing result with
  | nil => rfl
  | cons leaf ls ih =>
    simp only [List.map_cons, assign, Leaf.under, List.foldl_cons]
    cases leaf.value with
    | none => rfl
    | some x => exact ih _

mutual

theorem visit_eq : ∀ (node : Json φ) (path : String) (result : List (String × φ)),
    visit num node path result = assign path (leaves num node) result
  | .obj fields, path, result => visitFields_eq fields path result
  | .arr items, path, result => visitItems_eq items 0 path result
  | .int i, path, result => by simp only [visit, leaves, assign, List.foldl_nil]
  | .float x, path, result => by simp only [visit, leaves, assign, List.foldl_nil]
  | .null, path, result => rfl
  | .bool _, path, result => rfl
  | .str _, path, result => rfl
termination_by structural node => node

theorem visitFields_eq : ∀ (fields : List (String × Json φ)) (path : String)
    (result : List (String × φ)),
    visitFields num fields path result = assign path (leavesOfFields num fields) result
  | [], path, result => rfl
  | (key, value) :: fields, path, result => by
    rw [visitFields, leavesOfFields, assign_append, assign_under, visit_eq value]
    cases assign (extend path (.key key)) (leaves num value) result with
    | error e => rfl
    | ok result => exact visitFields_eq fields path result
termination_by structural fields => fields

theorem visitItems_eq : ∀ (items : List (Json φ)) (index : Nat) (path : String)
    (result : List (String × φ)),
    visitItems num items index path result = assign path (leavesOfItems num items index) result
  | [], index, path, result => rfl
  | value :: items, index, path, result => by
    rw [visitItems, leavesOfItems, assign_append, assign_under, visit_eq value]
    cases assign (extend path (.index index)) (leaves num value) result with
    | error e => rfl
    | ok result => exact visitItems_eq items (index + 1) path result
termination_by structural items => items

end

/-- The entries of leaves that have a value. -/
def entriesOf (ls : List (Leaf φ)) : List (String × φ) :=
  ls.filterMap fun leaf => leaf.value.map fun x => (spell leaf.position, x)

theorem entriesOf_cons {leaf : Leaf φ} {x : φ} (hx : leaf.value = some x) (ls : List (Leaf φ)) :
    entriesOf (leaf :: ls) = (spell leaf.position, x) :: entriesOf ls := by
  rw [entriesOf, List.filterMap_cons_some (by rw [hx]; rfl)]
  rfl

theorem assign_of_values {ls : List (Leaf φ)} (h : ∀ leaf ∈ ls, leaf.value.isSome)
    (result : List (String × φ)) :
    assign "" ls result = .ok ((entriesOf ls).foldl (fun d p => Dict.set d p.1 p.2) result) := by
  induction ls generalizing result with
  | nil => rfl
  | cons leaf ls ih =>
    obtain ⟨x, hx⟩ := Option.isSome_iff_exists.mp (h leaf List.mem_cons_self)
    rw [entriesOf_cons hx, List.foldl_cons]
    simp only [assign, hx]
    exact ih (fun l hl => h l (List.mem_cons_of_mem _ hl)) _

theorem map_entriesOf {ls : List (Leaf φ)} (h : ∀ leaf ∈ ls, leaf.value.isSome) :
    (entriesOf ls).map (fun p => (p.1, some p.2)) =
      ls.map fun leaf => (spell leaf.position, leaf.value) := by
  induction ls with
  | nil => rfl
  | cons leaf ls ih =>
    obtain ⟨x, hx⟩ := Option.isSome_iff_exists.mp (h leaf List.mem_cons_self)
    rw [entriesOf_cons hx, List.map_cons, List.map_cons, hx]
    exact congrArg _ (ih fun l hl => h l (List.mem_cons_of_mem _ hl))

theorem keys_entriesOf {ls : List (Leaf φ)} (h : ∀ leaf ∈ ls, leaf.value.isSome) :
    Dict.keys (entriesOf ls) = ls.map fun leaf => spell leaf.position := by
  have hmap := congrArg (List.map Prod.fst) (map_entriesOf h)
  simpa [Dict.keys, Function.comp_def] using hmap

/-- Paths are distinct when no two positions are confusable. -/
theorem nodup_paths_iff (ls : List (Leaf φ)) :
    (ls.map fun leaf => spell leaf.position).Nodup ↔
      ls.Pairwise fun a b => ¬ Confusable a.position b.position := by
  rw [List.Nodup, List.pairwise_map]
  simp only [ne_eq, spell_eq_iff]

/-- The entries of all outputs, one output after the other. -/
def entriesOfAll (num : Numerics φ) (outputs : List (Fields φ)) : List (String × φ) :=
  outputs.flatMap fun output => entriesOf (leaves num (.obj output))

/-- What an output has under a path, if it has one number there. -/
def leafUnder (ls : List (Leaf φ)) (path : String) : Option (Option φ) :=
  (ls.find? fun leaf => spell leaf.position == path).map Leaf.value

/-- The entries under a path are the one number that has it. -/
theorem values_under {ls : List (Leaf φ)} (hvalues : ∀ leaf ∈ ls, leaf.value.isSome)
    (hdistinct : (ls.map fun leaf => spell leaf.position).Nodup) (path : String) :
    (((entriesOf ls).filter fun p => p.1 = path).map Prod.snd).map some =
      (leafUnder ls path).toList := by
  induction ls with
  | nil => rfl
  | cons leaf ls ih =>
    have hrest : ∀ l ∈ ls, l.value.isSome := fun l hl => hvalues l (List.mem_cons_of_mem _ hl)
    obtain ⟨x, hx⟩ := Option.isSome_iff_exists.mp (hvalues leaf List.mem_cons_self)
    rw [List.map_cons, List.nodup_cons] at hdistinct
    rw [entriesOf_cons hx, leafUnder]
    by_cases hpath : spell leaf.position = path
    · have hnone : (entriesOf ls).filter (fun p => p.1 = path) = [] := by
        refine List.filter_eq_nil_iff.mpr fun p hp heq => hdistinct.1 ?_
        rw [← keys_entriesOf hrest, hpath, ← of_decide_eq_true heq]
        exact List.mem_map_of_mem hp
      rw [List.filter_cons_of_pos (by simpa using hpath), hnone,
        List.find?_cons_of_pos (by simpa using hpath), Option.map_some, hx]
      rfl
    · rw [List.filter_cons_of_neg (by simpa using hpath),
        List.find?_cons_of_neg (by simpa using hpath)]
      exact ih hrest hdistinct.2

theorem exists_of_leafUnder {ls : List (Leaf φ)} {path : String} (h : (leafUnder ls path).isSome) :
    ∃ leaf ∈ ls, spell leaf.position = path := by
  rw [leafUnder, Option.isSome_map, List.find?_isSome] at h
  obtain ⟨leaf, hleaf, hpath⟩ := h
  exact ⟨leaf, hleaf, beq_iff_eq.mp hpath⟩

theorem isSome_leafUnder {ls : List (Leaf φ)} {leaf : Leaf φ} (h : leaf ∈ ls) :
    (leafUnder ls (spell leaf.position)).isSome := by
  rw [leafUnder, Option.isSome_map, List.find?_isSome]
  exact ⟨leaf, h, beq_self_eq_true _⟩

theorem exists_of_leafAt {output : Fields φ} {position : List Step}
    (h : (leafAt num output position).isSome) :
    ∃ leaf ∈ leaves num (.obj output), leaf.position = position := by
  rw [leafAt, Option.isSome_map, List.find?_isSome] at h
  obtain ⟨leaf, hleaf, hposition⟩ := h
  exact ⟨leaf, hleaf, beq_iff_eq.mp hposition⟩

end NumericPathsLemmas

open NumericPathsLemmas

/-! ## 3. One output -/

section One
variable {num : Numerics φ}

/-- The numbers of an output are assigned in the order of their positions. -/
theorem extractNumericPaths_eq (output : Fields φ) :
    extractNumericPaths num output = assign "" (leaves num (.obj output)) [] :=
  visit_eq _ _ _

theorem extractNumericPaths_of_separate {output : Fields φ} (h : Separate num output) :
    extractNumericPaths num output = .ok (entriesOf (leaves num (.obj output))) := by
  have hnodup : (Dict.keys (entriesOf (leaves num (.obj output)))).Nodup := by
    rw [keys_entriesOf h.1]
    exact (nodup_paths_iff _).mpr h.2
  rw [extractNumericPaths_eq, assign_of_values h.1]
  exact congrArg Except.ok (Dict.ofPairs_of_nodup hnodup)

/-- An output has one entry for each number exactly when its numbers are separate. -/
theorem extractFaithful_iff (output : Fields φ) :
    ExtractFaithful num output ↔ Separate num output := by
  constructor
  · rintro ⟨hdistinct, result, -, hresult⟩
    refine ⟨fun leaf hleaf => ?_, (nodup_paths_iff _).mp hdistinct⟩
    have hmem : (spell leaf.position, leaf.value) ∈ result.map fun p => (p.1, some p.2) := by
      rw [hresult]
      exact List.mem_map_of_mem hleaf
    obtain ⟨p, -, hp⟩ := List.mem_map.mp hmem
    rw [← (Prod.mk.inj hp).2]
    rfl
  · intro h
    exact ⟨(nodup_paths_iff _).mpr h.2, _, extractNumericPaths_of_separate h, map_entriesOf h.1⟩

end One

/-! ## 4. All outputs of a CV -/

section All
variable {num : Numerics φ} {aggregateValues : List φ → String → φ}

theorem numericByPath_of_separate {outputs : List (Fields φ)}
    (h : ∀ output ∈ outputs, Separate num output) :
    numericByPath num outputs = .ok (Dict.group (entriesOfAll num outputs)) := by
  have hfold : ∀ groups : List (String × List φ), outputs.foldlM
      (fun groups output =>
        (extractNumericPaths num output).map fun entries =>
          entries.foldl (fun groups p => Dict.append groups p.1 p.2) groups) groups =
      .ok ((entriesOfAll num outputs).foldl (fun groups p => Dict.append groups p.1 p.2) groups) := by
    induction outputs with
    | nil => exact fun _ => rfl
    | cons output outputs ih =>
      intro groups
      rw [List.foldlM_cons, extractNumericPaths_of_separate (h output List.mem_cons_self),
        entriesOfAll, List.flatMap_cons, List.foldl_append]
      exact ih (fun o ho => h o (List.mem_cons_of_mem _ ho)) _
  exact hfold []

/-- The group of a path has the number of each output that has one there. -/
theorem group_under {outputs : List (Fields φ)} (h : ∀ output ∈ outputs, Separate num output)
    {path : String} {values : List φ}
    (hmem : (path, values) ∈ Dict.group (entriesOfAll num outputs)) :
    values.map some =
      outputs.filterMap fun output => leafUnder (leaves num (.obj output)) path := by
  rw [(Dict.mem_group hmem).1, entriesOfAll, List.filter_flatMap, List.map_flatMap, List.map_flatMap,
    List.filterMap_eq_flatMap_toList]
  exact List.flatMap_congr fun output ho =>
    values_under (h output ho).1 ((nodup_paths_iff _).mpr (h output ho).2) path

/-- The aggregates are those of the groups. -/
theorem mem_fieldAggregations {outputs : List (Fields φ)} {method : String}
    {sourceArtifacts : Option (List SourceArtifact)} {a : GenericAggregate φ}
    (h : ∀ output ∈ outputs, Separate num output)
    (ha : aggregateGeneric num aggregateValues outputs method sourceArtifacts = .ok (some a))
    {path : String} {x : φ} (hx : (path, x) ∈ a.fieldAggregations) :
    ∃ values, (path, values) ∈ Dict.group (entriesOfAll num outputs) ∧
      x = aggregateValues values method := by
  rw [aggregateGeneric, numericByPath_of_separate h] at ha
  split at ha
  · cases ha
  · cases ha
    simp only at hx
    rw [Dict.ofPairs_of_nodup] at hx
    · obtain ⟨⟨path', values⟩, hmem, heq⟩ := List.mem_map.mp hx
      cases heq
      exact ⟨values, hmem, rfl⟩
    · have hkeys := Dict.nodup_keys_group (entriesOfAll num outputs)
      simpa [Dict.keys, Function.comp_def] using hkeys

/-- Groups of aligned outputs come from one position each. -/
theorem fromOnePosition_of_aligned {outputs : List (Fields φ)}
    (h : ∀ output ∈ outputs, Separate num output) (haligned : Aligned num outputs)
    {path : String} {values : List φ}
    (hmem : (path, values) ∈ Dict.group (entriesOfAll num outputs)) :
    FromOnePosition num outputs path values := by
  have hvalues := group_under h hmem
  -- one of the values shows the position
  obtain ⟨output, ho, hsome⟩ : ∃ output ∈ outputs,
      (leafUnder (leaves num (.obj output)) path).isSome := by
    obtain ⟨v, hv⟩ := List.exists_mem_of_ne_nil values (Dict.mem_group hmem).2
    have hv' : some v ∈ values.map some := List.mem_map_of_mem hv
    rw [hvalues] at hv'
    obtain ⟨output, ho, hunder⟩ := List.mem_filterMap.mp hv'
    exact ⟨output, ho, by rw [hunder]; rfl⟩
  obtain ⟨leaf, hleaf, hpath⟩ := exists_of_leafUnder hsome
  refine ⟨leaf.position, hpath, hvalues.trans (List.filterMap_congr fun output' ho' => ?_)⟩
  rw [leafUnder, leafAt]
  refine congrArg _ (List.find?_congr fun leaf' hleaf' => ?_)
  by_cases hsame : leaf'.position = leaf.position
  · rw [hsame, hpath, beq_self_eq_true, beq_self_eq_true]
  · have hconf := haligned output' ho' output ho leaf' hleaf' leaf hleaf hsame
    rw [← spell_eq_iff, hpath] at hconf
    rw [beq_eq_false_iff_ne.mpr hconf, beq_eq_false_iff_ne.mpr hsame]

/-- Outputs whose groups come from one position each are aligned. -/
theorem aligned_of_grouped {outputs : List (Fields φ)}
    (h : ∀ output ∈ outputs, Separate num output)
    (hgrouped : ∀ path values, (path, values) ∈ Dict.group (entriesOfAll num outputs) →
      FromOnePosition num outputs path values) : Aligned num outputs := by
  intro output ho output' ho' a ha b hb hne hconf
  have hspell : spell b.position = spell a.position := (spell_eq_iff.mpr hconf).symm
  obtain ⟨x, hx⟩ := Option.isSome_iff_exists.mp ((h output ho).1 a ha)
  have hentry : (spell a.position, x) ∈ entriesOfAll num outputs :=
    List.mem_flatMap.mpr ⟨output, ho, List.mem_filterMap.mpr ⟨a, ha, by rw [hx]; rfl⟩⟩
  obtain ⟨values, hmem⟩ := Dict.exists_mem_group hentry
  obtain ⟨position, hposition, hvalues⟩ := hgrouped _ _ hmem
  -- each output that has the path has it at this position
  have hat := Search.isSome_of_length_filterMap
    (f := fun output => leafAt num output position)
    (g := fun output => leafUnder (leaves num (.obj output)) (spell a.position))
    (fun output hsome => by
      obtain ⟨leaf, hleaf, rfl⟩ := exists_of_leafAt hsome
      rw [← hposition]
      exact isSome_leafUnder hleaf)
    (by rw [← hvalues, ← group_under h hmem])
  have hone : ∀ output ∈ outputs, ∀ leaf ∈ leaves num (.obj output),
      spell leaf.position = spell a.position → leaf.position = position := by
    intro output ho leaf hleaf hpath
    have hsome := hat output ho (hpath ▸ isSome_leafUnder hleaf)
    obtain ⟨leaf', hleaf', hposition'⟩ := exists_of_leafAt hsome
    have hnodup := (nodup_paths_iff _).mpr (h output ho).2
    have heq : leaf = leaf' := List.inj_on_of_nodup_map hnodup hleaf hleaf'
      (by rw [hpath, hposition', hposition])
    rw [heq, hposition']
  exact hne ((hone output ho a ha rfl).trans (hone output' ho' b hb hspell).symm)

/-- The outputs of a CV are aggregated position by position exactly when the numbers of
each are separate and those of any two are aligned. -/
theorem aggregateFaithful_iff (outputs : List (Fields φ)) :
    AggregateFaithful num aggregateValues outputs ↔
      (∀ output ∈ outputs, Separate num output) ∧ Aligned num outputs := by
  constructor
  · rintro ⟨hextracted, ⟨groups, hgroups, hgrouped⟩, -⟩
    have hseparate : ∀ output ∈ outputs, Separate num output :=
      fun output ho => (extractFaithful_iff output).mp (hextracted output ho)
    rw [numericByPath_of_separate hseparate] at hgroups
    cases hgroups
    exact ⟨hseparate, aligned_of_grouped hseparate hgrouped⟩
  · rintro ⟨hseparate, haligned⟩
    refine ⟨fun output ho => (extractFaithful_iff output).mpr (hseparate output ho),
      ⟨_, numericByPath_of_separate hseparate, fun path values hmem =>
        fromOnePosition_of_aligned hseparate haligned hmem⟩, ?_⟩
    intro method sourceArtifacts a ha path x hx
    obtain ⟨values, hmem, rfl⟩ := mem_fieldAggregations hseparate ha hx
    exact ⟨values, fromOnePosition_of_aligned hseparate haligned hmem, rfl⟩

end All

/-- Extraction and aggregation keep the numbers of the outputs apart exactly when these
are separate, and aligned. -/
theorem numericPaths_faithful_iff (num : Numerics φ) (aggregateValues : List φ → String → φ) :
    (∀ output, ExtractFaithful num output ↔ Separate num output) ∧
      ∀ outputs, AggregateFaithful num aggregateValues outputs ↔
        (∀ output ∈ outputs, Separate num output) ∧ Aligned num outputs :=
  ⟨extractFaithful_iff, aggregateFaithful_iff⟩

namespace Sample

/-- Two numbers with one path. -/
def dottedKey : Fields ℚ := [("a.b", .int 1), ("a", .obj [("b", .int 2)])]

end Sample

/-- One of them is lost. -/
theorem dotted_key_merged :
    extractNumericPaths Sample.numerics Sample.dottedKey = .ok [("a.b", 2)] ∧
      ¬ ∀ output : Fields ℚ, DistinctKeys (.obj output) → ExtractFaithful Sample.numerics output := by
  have hkeys : DistinctKeys (.obj Sample.dottedKey) :=
    ⟨by decide, trivial, ⟨by decide, trivial, trivial⟩, trivial⟩
  refine ⟨rfl, fun h => ?_⟩
  have hdistinct := (h _ hkeys).distinct
  revert hdistinct
  decide

/-! ## 5. Outputs with plain keys -/

section Plain
variable {num : Numerics φ}

/-- Where leaves one step further down are. -/
theorem exists_of_mem_under {s : Step} {ls : List (Leaf φ)} {position : List Step}
    (h : position ∈ (ls.map (.under s)).map Leaf.position) : ∃ rest, position = s :: rest := by
  obtain ⟨_, hleaf, rfl⟩ := List.mem_map.mp h
  obtain ⟨leaf, -, rfl⟩ := List.mem_map.mp hleaf
  exact ⟨leaf.position, rfl⟩

/-- Where the leaves of an object are. -/
theorem exists_key_of_mem {fields : List (String × Json φ)} {position : List Step}
    (h : position ∈ (leavesOfFields num fields).map Leaf.position) :
    ∃ key ∈ Dict.keys fields, ∃ rest, position = .key key :: rest := by
  induction fields with
  | nil => cases h
  | cons p fields ih =>
    obtain ⟨key, value⟩ := p
    rw [leavesOfFields, List.map_append] at h
    rcases List.mem_append.mp h with h | h
    · exact ⟨key, List.mem_cons_self, exists_of_mem_under h⟩
    · obtain ⟨key', hkey', hrest⟩ := ih h
      exact ⟨key', List.mem_cons_of_mem _ hkey', hrest⟩

/-- Where the leaves of an array are. -/
theorem exists_index_of_mem {items : List (Json φ)} {index : Nat} {position : List Step}
    (h : position ∈ (leavesOfItems num items index).map Leaf.position) :
    ∃ i, index ≤ i ∧ ∃ rest, position = .index i :: rest := by
  induction items generalizing index with
  | nil => cases h
  | cons value items ih =>
    rw [leavesOfItems, List.map_append] at h
    rcases List.mem_append.mp h with h | h
    · exact ⟨index, Nat.le_refl _, exists_of_mem_under h⟩
    · obtain ⟨i, hi, hrest⟩ := ih h
      exact ⟨i, by omega, hrest⟩

theorem nodup_under {ls : List (Leaf φ)} (h : (ls.map Leaf.position).Nodup) (s : Step) :
    ((ls.map (.under s)).map Leaf.position).Nodup := by
  rw [List.map_map, show Leaf.position ∘ Leaf.under s = (s :: ·) ∘ Leaf.position from rfl,
    ← List.map_map]
  exact h.map fun _ _ heq => (List.cons.inj heq).2

mutual

/-- The leaves of a value are at distinct positions. -/
theorem nodup_positions : ∀ {node : Json φ}, DistinctKeys node →
    ((leaves num node).map Leaf.position).Nodup
  | .obj _, h => nodup_positionsOfFields h.1 h.2
  | .arr _, h => nodup_positionsOfItems 0 h
  | .int _, _ => List.nodup_singleton _
  | .float _, _ => List.nodup_singleton _
  | .null, _ => List.nodup_nil
  | .bool _, _ => List.nodup_nil
  | .str _, _ => List.nodup_nil
termination_by structural node => node

theorem nodup_positionsOfFields : ∀ {fields : List (String × Json φ)}, (Dict.keys fields).Nodup →
    DistinctKeysOfFields fields → ((leavesOfFields num fields).map Leaf.position).Nodup
  | [], _, _ => List.nodup_nil
  | (key, value) :: fields, hkeys, h => by
    rw [leavesOfFields, List.map_append]
    refine List.nodup_append.mpr ⟨nodup_under (nodup_positions h.1) _,
      nodup_positionsOfFields (List.nodup_cons.mp hkeys).2 h.2, ?_⟩
    rintro _ ha _ hb rfl
    obtain ⟨rest, rfl⟩ := exists_of_mem_under ha
    obtain ⟨key', hkey', _, heq⟩ := exists_key_of_mem hb
    cases heq
    exact (List.nodup_cons.mp hkeys).1 hkey'
termination_by structural fields => fields

theorem nodup_positionsOfItems : ∀ {items : List (Json φ)} (index : Nat),
    DistinctKeysOfItems items → ((leavesOfItems num items index).map Leaf.position).Nodup
  | [], _, _ => List.nodup_nil
  | value :: items, index, h => by
    rw [leavesOfItems, List.map_append]
    refine List.nodup_append.mpr ⟨nodup_under (nodup_positions h.1) _,
      nodup_positionsOfItems (index + 1) h.2, ?_⟩
    rintro _ ha _ hb rfl
    obtain ⟨rest, rfl⟩ := exists_of_mem_under ha
    obtain ⟨i, hi, _, heq⟩ := exists_index_of_mem hb
    cases heq
    omega
termination_by structural items => items

end

/-- Outputs whose keys are plain are aggregated position by position, when their numbers
convert. -/
theorem aggregateFaithful_of_plain {aggregateValues : List φ → String → φ}
    {outputs : List (Fields φ)} (hkeys : ∀ output ∈ outputs, DistinctKeys (.obj output))
    (hvalues : ∀ output ∈ outputs, ∀ leaf ∈ leaves num (.obj output), leaf.value.isSome)
    (hplain : ∀ output ∈ outputs, ∀ leaf ∈ leaves num (.obj output), Plain leaf.position) :
    AggregateFaithful num aggregateValues outputs := by
  refine (aggregateFaithful_iff outputs).mpr ⟨fun output ho => ⟨hvalues output ho, ?_⟩, ?_⟩
  · have hnodup : (leaves num (.obj output)).Pairwise fun a b => a.position ≠ b.position :=
      List.pairwise_map.mp (nodup_positions (hkeys output ho))
    exact hnodup.imp_of_mem fun ha hb hne =>
      not_confusable_of_plain (hplain output ho _ ha) (hplain output ho _ hb) hne
  · intro output ho output' ho' a ha b hb hne
    exact not_confusable_of_plain (hplain output ho a ha) (hplain output' ho' b hb) hne

end Plain

end TalentMatch
