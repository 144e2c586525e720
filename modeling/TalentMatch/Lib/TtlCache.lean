import Mathlib.Order.Lattice
import TalentMatch.Lib.Dict

/-!
# Caches with a time to live

A dictionary whose entries carry the time at which they expire. `put` stores a value for
`ttl`, and `get` finds it until then and removes it afterwards. Nothing is assumed about
the clock: readings need not be in order.

* `Logged`: every entry was stored, and expires `ttl` after that. It holds of the empty
  cache and is kept by `get` and `put` (`logged_get`, `logged_put`).
* `Logged.exists_stored`: a value that is found was stored less than `ttl` before.
* `get_put`: a stored value is found for `ttl`.
* `exists_get_eq_none`: no entry is found forever.
-/

namespace TtlCache

variable {κ ν τ : Type*}

/-! ## 1. Entries and what was stored -/

section Logged
variable [Add τ]

/-- Every entry was stored at a time that `stored` knows, and expires `ttl` after it. -/
def Logged (ttl : τ) (stored : κ → ν → τ → Prop) (entries : List (κ × (τ × ν))) : Prop :=
  ∀ k expiresAt v, (k, (expiresAt, v)) ∈ entries → ∃ s, stored k v s ∧ expiresAt = s + ttl

variable {ttl : τ} {stored stored' : κ → ν → τ → Prop} {entries : List (κ × (τ × ν))}

theorem logged_nil : Logged ttl stored [] := by
  intro k expiresAt v h
  cases h

theorem Logged.mono (h : Logged ttl stored entries)
    (himp : ∀ k v s, stored k v s → stored' k v s) : Logged ttl stored' entries := by
  intro k expiresAt v hmem
  obtain ⟨s, hs, he⟩ := h k expiresAt v hmem
  exact ⟨s, himp k v s hs, he⟩

variable [DecidableEq κ]

/-- The entries after a value was stored. -/
def put (ttl : τ) (entries : List (κ × (τ × ν))) (k : κ) (v : ν) (now : τ) : List (κ × (τ × ν)) :=
  Dict.set entries k (now + ttl, v)

theorem logged_put {k : κ} {v : ν} {now : τ} (h : Logged ttl stored entries)
    (hs : stored k v now) : Logged ttl stored (put ttl entries k v now) := by
  intro k' expiresAt v' hmem
  rcases Dict.mem_set hmem with hmem | ⟨rfl, heq⟩
  · exact h k' expiresAt v' hmem
  · cases heq
    exact ⟨now, hs, rfl⟩

end Logged

/-! ## 2. Lookups -/

variable [DecidableEq κ] [LinearOrder τ]

/-- The value of a key at a time, and the entries that are left. -/
def get (entries : List (κ × (τ × ν))) (k : κ) (now : τ) : Option ν × List (κ × (τ × ν)) :=
  match Dict.get? entries k with
  | none => (none, entries)
  | some (expiresAt, v) =>
    if expiresAt ≤ now then (none, Dict.remove [k] entries) else (some v, entries)

variable {entries : List (κ × (τ × ν))} {k : κ} {v : ν} {now : τ}

/-- A value that is found has an entry that has not expired. -/
theorem exists_mem_of_get_eq_some (h : (get entries k now).1 = some v) :
    ∃ expiresAt, (k, (expiresAt, v)) ∈ entries ∧ now < expiresAt := by
  unfold get at h
  split at h
  · cases h
  · next expiresAt w hget =>
    split at h
    · cases h
    · next hlt =>
      cases h
      exact ⟨expiresAt, Dict.mem_of_get? hget, not_le.mp hlt⟩

/-- A lookup makes no entries. -/
theorem mem_of_mem_get {p : κ × (τ × ν)} (h : p ∈ (get entries k now).2) : p ∈ entries := by
  unfold get at h
  split at h
  · exact h
  · split at h
    · exact List.mem_of_mem_filter h
    · exact h

/-- No entry is found forever. -/
theorem exists_get_eq_none (entries : List (κ × (τ × ν))) (k : κ) (now : τ) :
    ∃ later, now ≤ later ∧ (get entries k later).1 = none := by
  unfold get
  split
  · exact ⟨now, le_rfl, rfl⟩
  · next expiresAt v hget => exact ⟨max now expiresAt, le_max_left _ _, by simp⟩

section Add
variable [Add τ] {ttl : τ} {stored : κ → ν → τ → Prop}

/-- A stored value is found for `ttl`. -/
theorem get_put {s : τ} (h : now < s + ttl) :
    (get (put ttl entries k v s) k now).1 = some v := by
  simp [get, put, not_le.mpr h]

theorem logged_get (h : Logged ttl stored entries) (k : κ) (now : τ) :
    Logged ttl stored (get entries k now).2 :=
  fun k' expiresAt v hmem => h k' expiresAt v (mem_of_mem_get hmem)

/-- A value that is found was stored less than `ttl` before. -/
theorem Logged.exists_stored (h : Logged ttl stored entries)
    (hget : (get entries k now).1 = some v) : ∃ s, stored k v s ∧ now < s + ttl := by
  obtain ⟨expiresAt, hmem, hlt⟩ := exists_mem_of_get_eq_some hget
  obtain ⟨s, hs, rfl⟩ := h k expiresAt v hmem
  exact ⟨s, hs, hlt⟩

end Add

end TtlCache
