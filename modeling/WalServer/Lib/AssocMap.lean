import Mathlib.Data.List.AList

/-!
# `WalServer.Lib.AssocMap`: finite maps with a listed content

A finite map is an `AList` with a constant value type: its entries are a list
without repeated keys, so the map can be looked up, updated and iterated, and
no invalid map can be built. This file adds what `AList` lacks and the
development needs: the list of values, restriction to the keys that satisfy a
predicate, and how both meet `lookup`.
-/

set_option autoImplicit false

namespace WalServer.Lib

/-- A finite map from `κ` to `ν`. -/
abbrev AssocMap (κ ν : Type) := AList (fun _ : κ => ν)

namespace AssocMap

variable {κ ν : Type}

/-- The values of a map, in its iteration order. -/
def values (m : AssocMap κ ν) : List ν := m.entries.map Sigma.snd

/-- The part of a map whose keys satisfy `p`. -/
def filterKeys (m : AssocMap κ ν) (p : κ → Bool) : AssocMap κ ν where
  entries := m.entries.filter fun e => p e.1
  nodupKeys := List.NodupKeys.sublist List.filter_sublist m.nodupKeys

variable [DecidableEq κ]

/-- A value is listed exactly when some key leads to it. -/
theorem mem_values {m : AssocMap κ ν} {v : ν} :
    v ∈ values m ↔ ∃ k, m.lookup k = some v := by
  simp only [values, List.mem_map]
  constructor
  · rintro ⟨⟨k, v⟩, hmem, rfl⟩
    exact ⟨k, AList.mem_lookup_iff.mpr hmem⟩
  · rintro ⟨k, hk⟩
    exact ⟨⟨k, v⟩, AList.mem_lookup_iff.mp hk, rfl⟩

/-- **A map lists what it leads to**: its values are those of any list of different keys
that has the entries the map leads to. -/
theorem values_perm_of_lookup {m : AssocMap κ ν} {l : List (κ × ν)}
    (hkeys : (l.map Prod.fst).Nodup) (h : ∀ k v, m.lookup k = some v ↔ (k, v) ∈ l) :
    (values m).Perm (l.map Prod.snd) := by
  have hinjective : Function.Injective fun e : κ × ν => (⟨e.1, e.2⟩ : Σ _ : κ, ν) := by
    rintro ⟨k, v⟩ ⟨k', v'⟩ heq
    cases heq
    rfl
  have hentries : m.entries.Perm (l.map fun e => ⟨e.1, e.2⟩) := by
    refine (List.perm_ext_iff_of_nodup m.nodupKeys.nodup
      ((List.Nodup.of_map _ hkeys).map hinjective)).mpr ?_
    rintro ⟨k, v⟩
    rw [← AList.mem_lookup_iff, Option.mem_def, h k v]
    constructor
    · exact fun hmem => List.mem_map.mpr ⟨(k, v), hmem, rfl⟩
    · intro hmem
      obtain ⟨⟨k', v'⟩, hmem', heq⟩ := List.mem_map.mp hmem
      cases heq
      exact hmem'
  have hvalues := hentries.map Sigma.snd
  rwa [List.map_map] at hvalues

/-- Restriction keeps exactly the lookups of the keys it keeps. -/
@[simp] theorem lookup_filterKeys (m : AssocMap κ ν) (p : κ → Bool) (k : κ) :
    (filterKeys m p).lookup k = if p k then m.lookup k else none := by
  ext v
  have hmem : v ∈ (filterKeys m p).lookup k ↔ (v ∈ m.lookup k ∧ p k) := by
    rw [AList.mem_lookup_iff, AList.mem_lookup_iff]
    simp [filterKeys]
  rw [← Option.mem_def, hmem]
  split
  · rename_i hp; simp [hp]
  · rename_i hp; simp [hp]

/-- The lookup after an insertion, at any key. -/
theorem lookup_insert_eq (m : AssocMap κ ν) (k k' : κ) (v : ν) :
    (m.insert k v).lookup k' = if k' = k then some v else m.lookup k' := by
  split
  · rename_i h; subst h; exact AList.lookup_insert m
  · rename_i h; exact AList.lookup_insert_ne h

/-- The lookup after an erasure, at any key. -/
theorem lookup_erase_eq (m : AssocMap κ ν) (k k' : κ) :
    (m.erase k).lookup k' = if k' = k then none else m.lookup k' := by
  split
  · rename_i h; subst h; exact AList.lookup_erase k' m
  · rename_i h; exact AList.lookup_erase_ne h

/-- Erasing a key that is not there does nothing. -/
theorem erase_of_notMem {m : AssocMap κ ν} {k : κ} (h : k ∉ m) : m.erase k = m :=
  AList.ext (List.kerase_of_notMem_keys h)

end AssocMap

end WalServer.Lib
