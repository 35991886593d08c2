import Mathlib.Data.List.AList
import Mathlib.Tactic

/-!
# Finite maps and keyed loops

A hash map is modelled by an association list without duplicate keys, `AList` at a constant family.
The list order is the iteration order; no result below depends on it.

A loop `for (key, value) in map` whose body touches only the part of the state that belongs to `key`
computes one update per key. `HashMap.foldl_obs` states this for total bodies and
`HashMap.foldlM_obs`, `HashMap.foldlM_isSome` for bodies that may abort.
-/

set_option autoImplicit false

open List

/-- Finite maps with an iteration order. -/
abbrev HashMap (K V : Type) := AList (fun _ : K => V)

namespace HashMap

variable {K V W : Type} (m : HashMap K V) (k k' : K)

section Lookup

variable [DecidableEq K]

theorem lookup_insert_ite (v : V) :
    (m.insert k v).lookup k' = if k' = k then some v else m.lookup k' := by
  split_ifs with h
  · subst h
    exact AList.lookup_insert m
  · exact AList.lookup_insert_ne h

theorem lookup_insert_some {m : HashMap K V} {k k' : K} {v v' : V}
    (h : (m.insert k v).lookup k' = some v') :
    k' = k ∧ v' = v ∨ k' ≠ k ∧ m.lookup k' = some v' := by
  rw [lookup_insert_ite] at h
  split_ifs at h with heq
  · exact .inl ⟨heq, (Option.some.inj h).symm⟩
  · exact .inr ⟨heq, h⟩

theorem lookup_singleton {k k' : K} {v v' : V}
    (h : ((∅ : HashMap K V).insert k v).lookup k' = some v') : k' = k ∧ v' = v :=
  (lookup_insert_some h).resolve_right fun hempty => by cases hempty.2

theorem lookup_erase_ite : (m.erase k).lookup k' = if k' = k then none else m.lookup k' := by
  split_ifs with h
  · subst h
    exact AList.lookup_erase k' m
  · exact AList.lookup_erase_ne h

theorem eq_empty_of_lookup {m : HashMap K V} (h : ∀ k, m.lookup k = none) : m = ∅ := by
  obtain ⟨l, hl⟩ := m
  cases l with
  | nil => rfl
  | cons e l =>
    have hnone := h e.1
    rw [AList.lookup_eq_none] at hnone
    exact absurd (mem_map_of_mem mem_cons_self) hnone

theorem lookup_union (m m' : HashMap K V) (k : K) :
    (m ∪ m').lookup k = (m.lookup k).or (m'.lookup k) := by
  by_cases hk : k ∈ m
  · obtain ⟨v, hv⟩ := Option.isSome_iff_exists.1 (AList.lookup_isSome.2 hk)
    rw [AList.lookup_union_left hk, hv, Option.some_or]
  · rw [AList.lookup_union_right hk, AList.lookup_eq_none.2 hk, Option.none_or]

/-- Lookup on the raw list, by cases on the head entry. -/
theorem lookup_mk_cons (v : V) (l : List (Sigma fun _ : K => V))
    (h : (⟨k, v⟩ :: l).NodupKeys) : (AList.mk (⟨k, v⟩ :: l) h : HashMap K V).lookup k' =
      if k' = k then some v else
        (AList.mk l (nodupKeys_cons.1 h).2 : HashMap K V).lookup k' := by
  split_ifs with hk
  · subst hk
    exact dlookup_cons_eq l k' v
  · exact dlookup_cons_ne l ⟨k, v⟩ hk

theorem lookup_tail_self (k : K) (v : V) (l : List (Sigma fun _ : K => V))
    (h : (⟨k, v⟩ :: l).NodupKeys) :
    (AList.mk l (nodupKeys_cons.1 h).2 : HashMap K V).lookup k = none :=
  AList.lookup_eq_none.2 (nodupKeys_cons.1 h).1

end Lookup

/-! ## Maps over values -/

/-- `map.into_iter().filter_map(f).collect()` on the values of a map. -/
def filterMapValues (f : V → Option W) (m : HashMap K V) : HashMap K W where
  entries := m.entries.filterMap fun e => (f e.2).map fun w => ⟨e.1, w⟩
  nodupKeys := by
    obtain ⟨l, hl⟩ := m
    induction l with
    | nil => exact nodupKeys_nil
    | cons e l ih =>
      obtain ⟨hnot, hl'⟩ := nodupKeys_cons.1 hl
      have hrest := ih hl'
      cases hf : f e.2 with
      | none => simpa [filterMap_cons, hf] using hrest
      | some w =>
        simp only [filterMap_cons, hf, Option.map_some]
        refine nodupKeys_cons.2 ⟨fun hmem => hnot ?_, hrest⟩
        simp only [keys, mem_map, mem_filterMap] at hmem ⊢
        obtain ⟨x, ⟨y, hy, hxy⟩, hx⟩ := hmem
        refine ⟨y, hy, ?_⟩
        cases hfy : f y.2 with
        | none => simp [hfy] at hxy
        | some w' =>
          simp only [hfy, Option.map_some, Option.some.injEq] at hxy
          rw [← hx, ← hxy]

theorem lookup_filterMapValues [DecidableEq K] (f : V → Option W) (m : HashMap K V) (k : K) :
    (m.filterMapValues f).lookup k = (m.lookup k).bind f := by
  obtain ⟨l, hl⟩ := m
  induction l with
  | nil => rfl
  | cons e l ih =>
    obtain ⟨k', v⟩ := e
    have hrest := ih (nodupKeys_cons.1 hl).2
    rw [lookup_mk_cons]
    by_cases hk : k = k'
    · subst hk
      cases hf : f v with
      | some w => simp [filterMapValues, AList.lookup, hf]
      | none =>
        have hnone := lookup_tail_self k v l hl
        rw [hnone, Option.bind_none] at hrest
        simpa [filterMapValues, AList.lookup, filterMap_cons, hf] using hrest
    · rw [if_neg hk, ← hrest]
      cases hf : f v with
      | none => simp [filterMapValues, AList.lookup, hf]
      | some w => simp [filterMapValues, AList.lookup, hf, hk]

/-- `map.into_iter().map(f).collect()` on the values of a map. -/
def mapValues (f : V → W) (m : HashMap K V) : HashMap K W :=
  m.filterMapValues fun v => some (f v)

@[simp]
theorem lookup_mapValues [DecidableEq K] (f : V → W) (m : HashMap K V) (k : K) :
    (m.mapValues f).lookup k = (m.lookup k).map f := by
  rw [mapValues, lookup_filterMapValues]
  cases m.lookup k <;> rfl

/-! ## Entries -/

/-- `map.entry(key).or_insert(default)`, changed by `f`: a value stays in its place, a new one comes
at the end. -/
def upsert [DecidableEq K] (k : K) (default : V) (f : V → V) : HashMap K V where
  entries :=
    if k ∈ m then m.entries.map fun e => ⟨e.1, if e.1 = k then f e.2 else e.2⟩
    else m.entries ++ [⟨k, f default⟩]
  nodupKeys := by
    split_ifs with hk
    · have hkeys : (m.entries.map fun e => (⟨e.1, if e.1 = k then f e.2 else e.2⟩ :
          Sigma fun _ : K => V)).keys = m.entries.keys := by
        rw [keys, map_map]
        rfl
      rw [List.NodupKeys, hkeys]
      exact m.nodupKeys
    · rw [List.NodupKeys, keys, map_append]
      exact List.Nodup.append m.nodupKeys (nodup_singleton k) (by
        rw [map_singleton, disjoint_singleton]
        exact hk)

theorem lookup_upsert [DecidableEq K] (default : V) (f : V → V) :
    (m.upsert k default f).lookup k' =
      if k' = k then some (f ((m.lookup k).getD default)) else m.lookup k' := by
  unfold upsert AList.lookup
  dsimp only
  by_cases hk : k ∈ m
  · have hmap : dlookup k' (m.entries.map fun e =>
        (⟨e.1, if e.1 = k then f e.2 else e.2⟩ : Sigma fun _ : K => V)) =
          (dlookup k' m.entries).map fun v => if k' = k then f v else v :=
      dlookup_map₂ (f := fun a v => if a = k then f v else v) k'
    rw [if_pos hk, hmap]
    obtain ⟨v, hv⟩ := Option.isSome_iff_exists.1 (AList.lookup_isSome.2 hk)
    split_ifs with heq
    · subst heq
      rw [show dlookup k' m.entries = some v from hv]
      simp
    · cases dlookup k' m.entries <;> simp
  · rw [if_neg hk, dlookup_append]
    have hnone : dlookup k m.entries = none := AList.lookup_eq_none.2 hk
    split_ifs with heq
    · subst heq
      rw [hnone]
      simp
    · rw [dlookup_cons_ne _ _ heq, dlookup_nil, Option.or_none]

/-- The value at the key, which is put there if the key has none, and the map afterwards. -/
def entryOrInsert [DecidableEq K] (k : K) (v : V) : V × HashMap K V :=
  match m.lookup k with
  | some present => (present, m)
  | none => (v, m.insert k v)

/-- What holds of every entry and of the new value holds of every entry afterwards, and of the
answer. -/
theorem entryOrInsert_holds [DecidableEq K] {m : HashMap K V} {P : K → V → Prop} {k : K} {v : V}
    (hm : ∀ k v, m.lookup k = some v → P k v) (hv : P k v) :
    (∀ k' v', (m.entryOrInsert k v).2.lookup k' = some v' → P k' v') ∧
      P k (m.entryOrInsert k v).1 := by
  unfold entryOrInsert
  cases hlookup : m.lookup k with
  | some present => exact ⟨hm, hm k present hlookup⟩
  | none =>
    refine ⟨fun k' v' h => ?_, hv⟩
    obtain ⟨rfl, rfl⟩ | ⟨-, h⟩ := lookup_insert_some h
    · exact hv
    · exact hm k' v' h

/-! ## Sizes -/

/-- The sum of a size over all values. -/
def total (size : V → Nat) (m : HashMap K V) : Nat := (m.entries.map fun e => size e.2).sum

section Total

variable [DecidableEq K] (size : V → Nat)

theorem total_erase {m : HashMap K V} {k : K} {v : V} (h : m.lookup k = some v) :
    total size (m.erase k) + size v = total size m := by
  obtain ⟨l, hl⟩ := m
  unfold total AList.erase
  dsimp only
  induction l with
  | nil => cases h
  | cons e l ih =>
    obtain ⟨k', v'⟩ := e
    rw [lookup_mk_cons] at h
    split_ifs at h with heq
    · cases h
      rw [kerase_cons_eq heq, map_cons, sum_cons]
      exact Nat.add_comm _ _
    · have hrest := ih (nodupKeys_cons.1 hl).2 h
      rw [kerase_cons_ne heq, map_cons, map_cons, sum_cons, sum_cons]
      omega

theorem total_erase_of_none {m : HashMap K V} {k : K} (h : m.lookup k = none) :
    total size (m.erase k) = total size m := by
  unfold total
  rw [show (m.erase k).entries = m.entries from kerase_of_notMem_keys
    (AList.lookup_eq_none.1 h)]

theorem total_insert (m : HashMap K V) (k : K) (v : V) :
    total size (m.insert k v) = total size (m.erase k) + size v :=
  Nat.add_comm _ _

end Total

/-! ## Maps from lists -/

section Collect

variable [DecidableEq K]

/-- `from_iter` of a map without an order: a later pair replaces an earlier one. -/
def ofPairs (pairs : List (K × V)) : HashMap K V := pairs.foldl (fun m p => m.insert p.1 p.2) ∅

/-- `IndexMap::from_iter`: a pair comes at the end, or replaces the value of its key in its
place. -/
def ofPairsInOrder (pairs : List (K × V)) : HashMap K V :=
  pairs.foldl (fun m p => m.upsert p.1 p.2 fun _ => p.2) ∅

/-- A map of pairs with different keys has these pairs. -/
theorem lookup_ofPairs {pairs : List (K × V)} (hnodup : (pairs.map Prod.fst).Nodup) (k : K)
    (v : V) :
    (ofPairs pairs).lookup k = some v ↔ (k, v) ∈ pairs := by
  suffices h : ∀ m : HashMap K V, (∀ p ∈ pairs, p.1 ∉ m) → ∀ e,
      e ∈ (pairs.foldl (fun m p => m.insert p.1 p.2) m).entries ↔
        (e.1, e.2) ∈ pairs ∨ e ∈ m.entries by
    refine AList.mem_lookup_iff.trans ((h ∅ (fun p _ => AList.notMem_empty p.1) ⟨k, v⟩).trans ?_)
    exact ⟨fun hor => hor.resolve_right not_mem_nil, Or.inl⟩
  induction pairs with
  | nil => exact fun m _ e => ⟨Or.inr, fun h => h.resolve_left not_mem_nil⟩
  | cons p pairs ih =>
    intro m hm e
    rw [map_cons, nodup_cons] at hnodup
    obtain ⟨hp, hrest⟩ := hnodup
    have hfresh : ∀ q ∈ pairs, q.1 ∉ m.insert p.1 p.2 := by
      intro q hq hmem
      rcases (AList.mem_insert m).1 hmem with heq | hmem
      · exact hp (heq ▸ mem_map_of_mem hq)
      · exact hm q (mem_cons_of_mem _ hq) hmem
    rw [foldl_cons, ih hrest _ hfresh,
      AList.entries_insert_of_notMem (hm p mem_cons_self), mem_cons, mem_cons]
    have hhead : e = ⟨p.1, p.2⟩ ↔ (e.1, e.2) = p := by
      rw [Prod.ext_iff, Sigma.ext_iff, heq_eq_eq]
    rw [hhead, or_left_comm, or_assoc]

/-- Pairs with different keys stay in their order. -/
theorem entries_ofPairsInOrder {pairs : List (K × V)} (hnodup : (pairs.map Prod.fst).Nodup) :
    (ofPairsInOrder pairs).entries = pairs.map fun p => ⟨p.1, p.2⟩ := by
  suffices h : ∀ m : HashMap K V, (∀ p ∈ pairs, p.1 ∉ m) →
      (pairs.foldl (fun m p => m.upsert p.1 p.2 fun _ => p.2) m).entries =
        m.entries ++ pairs.map fun p => ⟨p.1, p.2⟩ from
    h ∅ fun p _ => AList.notMem_empty p.1
  induction pairs with
  | nil => exact fun m _ => (append_nil _).symm
  | cons p pairs ih =>
    intro m hm
    rw [map_cons, nodup_cons] at hnodup
    obtain ⟨hp, hrest⟩ := hnodup
    have hentries : (m.upsert p.1 p.2 fun _ => p.2).entries = m.entries ++ [⟨p.1, p.2⟩] :=
      if_neg (hm p mem_cons_self)
    have hfresh : ∀ q ∈ pairs, q.1 ∉ m.upsert p.1 p.2 fun _ => p.2 := by
      intro q hq
      have hne : q.1 ≠ p.1 := fun heq => hp (heq ▸ mem_map_of_mem hq)
      rw [← AList.lookup_eq_none, lookup_upsert, if_neg hne, AList.lookup_eq_none]
      exact hm q (mem_cons_of_mem _ hq)
    rw [foldl_cons, ih hrest _ hfresh, hentries, append_assoc]
    rfl

end Collect

/-! ## Keyed loops -/

section Loop

variable [DecidableEq K] {S O : Type}

/-- A loop over a map whose body acts on the observation at its own key by `upd` and leaves the
observations at other keys alone. -/
theorem foldl_obs (step : S → K → V → S) (obs : K → S → O) (upd : K → V → O → O)
    (hself : ∀ s k v, obs k (step s k v) = upd k v (obs k s))
    (hother : ∀ s k v k', k' ≠ k → obs k' (step s k v) = obs k' s)
    (m : HashMap K V) (s : S) (k : K) :
    obs k (m.foldl step s) = (m.lookup k).elim (obs k s) fun v => upd k v (obs k s) := by
  obtain ⟨l, hl⟩ := m
  induction l generalizing s with
  | nil => rfl
  | cons e l ih =>
    obtain ⟨k', v⟩ := e
    have hrest := ih (step s k' v) (nodupKeys_cons.1 hl).2
    rw [lookup_mk_cons]
    by_cases hk : k = k'
    · subst hk
      rw [lookup_tail_self k v l hl, hself] at hrest
      rw [if_pos rfl]
      exact hrest
    · rw [if_neg hk]
      rw [hother s k' v k hk] at hrest
      exact hrest

/-- The keyed loop lemma for a loop over the list that `filter_map` makes of the entries. -/
theorem foldl_filterMap_obs {E : Type} (f : (Sigma fun _ : K => V) → Option E) (g : S → E → S)
    (obs : K → S → O) (upd : K → V → O → O)
    (hself : ∀ s k v, obs k ((f ⟨k, v⟩).elim s (g s)) = upd k v (obs k s))
    (hother : ∀ s k v k', k' ≠ k → obs k' ((f ⟨k, v⟩).elim s (g s)) = obs k' s)
    (m : HashMap K V) (s : S) (k : K) : obs k ((m.entries.filterMap f).foldl g s) =
      (m.lookup k).elim (obs k s) fun v => upd k v (obs k s) := by
  rw [← foldl_obs (fun s k v => (f ⟨k, v⟩).elim s (g s)) obs upd hself hother, foldl_filterMap]
  refine congrArg (obs k) (congrArg (fun step => foldl step s m.entries) ?_)
  funext s e
  obtain ⟨k, v⟩ := e
  show _ = (f ⟨k, v⟩).elim s (g s)
  cases f ⟨k, v⟩ <;> rfl

variable (step : S → K → V → Option S)

/-- `for (key, value) in map` with a body that may abort. -/
def foldlM (s : S) : Option S :=
  m.entries.foldlM (fun s e => step s e.1 e.2) s

omit [DecidableEq K] in
theorem foldlM_mk_cons (k : K) (v : V) (l : List (Sigma fun _ : K => V))
    (h : (⟨k, v⟩ :: l).NodupKeys) (step : S → K → V → Option S) (s : S) :
    foldlM (AList.mk (⟨k, v⟩ :: l) h) step s =
      (step s k v).bind fun s' => foldlM (AList.mk l (nodupKeys_cons.1 h).2) step s' := rfl

/-- The keyed loop lemma for a body that may abort: under an invariant `P` of the body, a run that
ends has applied the body of each key once to the observation at that key. -/
theorem foldlM_obs (P : S → Prop) (obs : K → S → O)
    (upd : K → V → O → O → Prop) (hP : ∀ s k v s', P s → step s k v = some s' → P s')
    (hself : ∀ s k v s', P s → step s k v = some s' → upd k v (obs k s) (obs k s'))
    (hother : ∀ s k v s' k', P s → step s k v = some s' → k' ≠ k → obs k' s' = obs k' s)
    (m : HashMap K V) (s s' : S) (hs : P s) (hrun : m.foldlM step s = some s') : P s' ∧ ∀ k,
      match m.lookup k with
      | none => obs k s' = obs k s
      | some v => upd k v (obs k s) (obs k s') := by
  obtain ⟨l, hl⟩ := m
  induction l generalizing s with
  | nil =>
    have heq : some s = some s' := hrun
    cases heq
    exact ⟨hs, fun k => rfl⟩
  | cons e l ih =>
    obtain ⟨k', v⟩ := e
    rw [foldlM_mk_cons, Option.bind_eq_some_iff] at hrun
    obtain ⟨s₁, hstep, hrun⟩ := hrun
    obtain ⟨hs', hrest⟩ := ih s₁ (hP s k' v s₁ hs hstep) (nodupKeys_cons.1 hl).2 hrun
    refine ⟨hs', fun k => ?_⟩
    have hrest := hrest k
    rw [lookup_mk_cons]
    by_cases hk : k = k'
    · subst hk
      rw [lookup_tail_self k v l hl] at hrest
      rw [if_pos rfl]
      rw [hrest]
      exact hself s k v s₁ hs hstep
    · rw [if_neg hk]
      rw [hother s k' v s₁ k hs hstep hk] at hrest
      exact hrest

/-- A loop simulates an abstract one. `Fresh k s` holds until the body of `k` has run. -/
theorem foldlM_simulates {A : Type} (astep : A → K → V → A)
    (Rel : S → A → Prop) (Fresh : K → S → Prop) (m : HashMap K V)
    (hstep : ∀ s x k v, m.lookup k = some v → Rel s x → Fresh k s →
      ∃ s', step s k v = some s' ∧ Rel s' (astep x k v) ∧ ∀ k', k' ≠ k → Fresh k' s → Fresh k' s')
    (s : S) (x : A) (hrel : Rel s x) (hfresh : ∀ k v, m.lookup k = some v → Fresh k s) :
    ∃ s', m.foldlM step s = some s' ∧ Rel s' (m.foldl astep x) := by
  obtain ⟨l, hl⟩ := m
  induction l generalizing s x with
  | nil => exact ⟨s, rfl, hrel⟩
  | cons e l ih =>
    obtain ⟨k, v⟩ := e
    have hhead : (AList.mk (⟨k, v⟩ :: l) hl : HashMap K V).lookup k = some v := by
      rw [lookup_mk_cons, if_pos rfl]
    have htail : ∀ k' v', (AList.mk l (nodupKeys_cons.1 hl).2 : HashMap K V).lookup k' =
        some v' →
        k' ≠ k ∧ (AList.mk (⟨k, v⟩ :: l) hl : HashMap K V).lookup k' = some v' := by
      intro k' v' hlookup
      have hne : k' ≠ k := by
        rintro rfl
        rw [lookup_tail_self k' v l hl] at hlookup
        cases hlookup
      rw [lookup_mk_cons, if_neg hne]
      exact ⟨hne, hlookup⟩
    obtain ⟨s₁, hs₁, hrel₁, hkeep⟩ := hstep s x k v hhead hrel (hfresh k v hhead)
    obtain ⟨s', hs', hrel'⟩ := ih s₁ (astep x k v) hrel₁ (nodupKeys_cons.1 hl).2
      (fun s x k' v' hlookup => hstep s x k' v' (htail k' v' hlookup).2)
      fun k' v' hlookup =>
        hkeep k' (htail k' v' hlookup).1 (hfresh k' v' (htail k' v' hlookup).2)
    exact ⟨s', by rw [foldlM_mk_cons, hs₁]; exact hs', hrel'⟩

/-- A keyed loop ends when the body is defined at every key of the map on every state with the
observation the loop started from. -/
theorem foldlM_isSome (P : S → Prop) (obs : K → S → O)
    (hP : ∀ s k v s', P s → step s k v = some s' → P s')
    (hother : ∀ s k v s' k', P s → step s k v = some s' → k' ≠ k → obs k' s' = obs k' s)
    (m : HashMap K V) (s : S) (hs : P s)
    (hdef : ∀ k v s₁, P s₁ → m.lookup k = some v → obs k s₁ = obs k s → (step s₁ k v).isSome) :
    ∃ s', m.foldlM step s = some s' := by
  -- a key is fresh while its observation is the one at the start
  obtain ⟨s', hrun, -⟩ := foldlM_simulates step (fun x _ _ => x) (fun s (_ : Unit) => P s)
    (fun k s₁ => obs k s₁ = obs k s) m (fun s₁ _ k v hlookup hs₁ hfresh => by
      obtain ⟨s₂, hs₂⟩ := Option.isSome_iff_exists.1 (hdef k v s₁ hs₁ hlookup hfresh)
      exact ⟨s₂, hs₂, hP s₁ k v s₂ hs₁ hs₂, fun k' hne hfresh' =>
        (hother s₁ k v s₂ k' hs₁ hs₂ hne).trans hfresh'⟩) s () hs fun _ _ _ => rfl
  exact ⟨s', hrun⟩

end Loop

end HashMap
