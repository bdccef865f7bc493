import Mathlib.Data.Finset.Basic
import Mathlib.Data.Set.Lattice
import PredictionEdge.Lib.Merged

/-!
# Connected components by seed and grow

Items announce keys; two items are joined when they share one. `components` finds
the connected components the plain way: take the first unassigned item as a seed,
sweep the rest for items that touch the keys collected so far, and sweep again
until a pass adds nothing.

Three facts carry everything else. The blocks partition the list, different blocks
share no key, and a block cannot be cut: a set of keys that no item of the block
straddles holds all of the block's keys or none of them. Together they make the
partition canonical, so reordering the list, or filtering out whole blocks, yields
the same blocks up to the order inside each.
-/

namespace PredictionEdge.Lib

variable {M K : Type}

/-- The keys of a list of items. -/
def keysOf (touch : M → List K) (l : List M) : Set K := {k | ∃ m ∈ l, k ∈ touch m}

/-- No item of `l` has keys both inside and outside `S`. -/
def Uncut (touch : M → List K) (S : Set K) (l : List M) : Prop :=
  ∀ m ∈ l, (∀ k ∈ touch m, k ∈ S) ∨ ∀ k ∈ touch m, k ∉ S

variable {l c : List M} {keys : Finset K} {m : M}

theorem mem_keysOf {touch : M → List K} {k : K} : k ∈ keysOf touch l ↔ ∃ m ∈ l, k ∈ touch m :=
  Iff.rfl

variable [DecidableEq K]

/-- One sweep: the items picked up, the keys collected, the items left. -/
def growPass (touch : M → List K) : Finset K → List M → List M × Finset K × List M
  | keys, [] => ([], keys, [])
  | keys, m :: rest =>
    if (touch m).any (· ∈ keys) then
      let r := growPass touch (keys ∪ (touch m).toFinset) rest
      (m :: r.1, r.2.1, r.2.2)
    else
      let r := growPass touch keys rest
      (r.1, r.2.1, m :: r.2.2)

/-- Sweep until a pass adds nothing. `fuel` bounds the number of passes. -/
def grow (touch : M → List K) : Nat → Finset K → List M → List M × List M
  | 0, _, rest => ([], rest)
  | fuel + 1, keys, rest =>
    let r := growPass touch keys rest
    if r.1.isEmpty then ([], rest)
    else
      let g := grow touch fuel r.2.1 r.2.2
      (r.1 ++ g.1, g.2)

/-- The blocks, in the order of their seeds. -/
def componentsAux (touch : M → List K) : Nat → List M → List (List M)
  | 0, _ => []
  | _ + 1, [] => []
  | fuel + 1, seed :: rest =>
    let g := grow touch rest.length (touch seed).toFinset rest
    (seed :: g.1) :: componentsAux touch fuel g.2

def components (touch : M → List K) (l : List M) : List (List M) :=
  componentsAux touch l.length l

variable {touch : M → List K}

/-! ## One sweep -/

theorem growPass_merged (touch : M → List K) : ∀ (keys : Finset K) (l : List M),
    Merged (growPass touch keys l).1 (growPass touch keys l).2.2 l
  | _, [] => .nil
  | keys, m :: l => by
    rw [growPass]
    split
    · exact .left (growPass_merged touch _ l)
    · exact .right (growPass_merged touch keys l)

theorem growPass_keys : ∀ (keys : Finset K) (l : List M) (k : K),
    k ∈ (growPass touch keys l).2.1 ↔ k ∈ keys ∨ k ∈ keysOf touch (growPass touch keys l).1
  | keys, [], k => by simp [growPass, mem_keysOf]
  | keys, m :: l, k => by
    rw [growPass]
    split
    · simp only [growPass_keys _ l k, Finset.mem_union, List.mem_toFinset, mem_keysOf,
        List.mem_cons, exists_eq_or_imp, or_assoc]
    · exact growPass_keys keys l k

/-- Everything a sweep picks up announces some key. -/
theorem growPass_ne_nil : ∀ (keys : Finset K) (l : List M),
    ∀ m ∈ (growPass touch keys l).1, touch m ≠ []
  | _, [] => by simp [growPass]
  | keys, m :: l => by
    rw [growPass]
    split
    · rename_i hm
      intro x hx
      rcases List.mem_cons.mp hx with rfl | hx
      · intro he; rw [he] at hm; simp at hm
      · exact growPass_ne_nil _ l x hx
    · exact growPass_ne_nil keys l

/-- A sweep that picks up nothing has met every item and none touched the keys. -/
theorem growPass_empty : ∀ (keys : Finset K) (l : List M), (growPass touch keys l).1 = [] →
    ∀ m ∈ l, ∀ k ∈ touch m, k ∉ keys
  | _, [], _ => by simp
  | keys, m :: l, h => by
    rw [growPass] at h
    split at h
    · simp at h
    · rename_i hm
      intro x hx k hk
      rcases List.mem_cons.mp hx with rfl | hx
      · intro hkk
        exact hm (List.any_eq_true.mpr ⟨k, hk, by simpa using hkk⟩)
      · exact growPass_empty keys l h x hx k hk

variable {S : Set K}

/-- A set that holds the collected keys, and that no new item straddles, keeps holding them. -/
theorem growPass_inside : ∀ (keys : Finset K) (l : List M), (∀ k ∈ keys, k ∈ S) →
    Uncut touch S (growPass touch keys l).1 →
    ∀ m ∈ (growPass touch keys l).1, ∀ k ∈ touch m, k ∈ S
  | _, [], _, _ => by simp [growPass]
  | keys, m :: l, hk, hu => by
    rw [growPass] at hu ⊢
    split at hu
    · rename_i hm
      rw [if_pos hm]
      -- the new item meets a collected key, so it lies inside `S` as a whole
      have hin : ∀ k ∈ touch m, k ∈ S := by
        rcases hu m List.mem_cons_self with h | h
        · exact h
        · obtain ⟨k, hkm, hkk⟩ := List.any_eq_true.mp hm
          exact absurd (hk k (by simpa using hkk)) (h k hkm)
      have hk' : ∀ k ∈ keys ∪ (touch m).toFinset, k ∈ S := by
        intro k hkk
        rcases Finset.mem_union.mp hkk with h | h
        · exact hk k h
        · exact hin k (List.mem_toFinset.mp h)
      intro x hx
      rcases List.mem_cons.mp hx with rfl | hx
      · exact hin
      · exact growPass_inside _ l hk' (fun y hy => hu y (List.mem_cons_of_mem _ hy)) x hx
    · rename_i hm
      rw [if_neg hm]
      exact growPass_inside keys l hk hu

/-! ## Sweeping to the end -/

theorem grow_perm (touch : M → List K) : ∀ (fuel : Nat) (keys : Finset K) (l : List M),
    ((grow touch fuel keys l).1 ++ (grow touch fuel keys l).2).Perm l
  | 0, _, _ => .refl _
  | fuel + 1, keys, l => by
    rw [grow]
    split
    · exact .refl _
    · refine List.Perm.trans ?_ (growPass_merged touch keys l).perm.symm
      rw [List.append_assoc]
      exact (grow_perm touch fuel _ _).append_left _

theorem grow_ne_nil : ∀ (fuel : Nat) (keys : Finset K) (l : List M),
    ∀ m ∈ (grow touch fuel keys l).1, touch m ≠ []
  | 0, _, _ => by simp [grow]
  | fuel + 1, keys, l => by
    rw [grow]
    split
    · simp
    · intro m hm
      rcases List.mem_append.mp hm with h | h
      · exact growPass_ne_nil keys l m h
      · exact grow_ne_nil fuel _ _ m h

/-- With one unit of fuel for each item, what is left touches none of the collected keys. -/
theorem grow_left : ∀ (fuel : Nat) (keys : Finset K) (l : List M), l.length ≤ fuel →
    ∀ m ∈ (grow touch fuel keys l).2, ∀ k ∈ touch m,
      k ∉ keys ∧ k ∉ keysOf touch (grow touch fuel keys l).1
  | 0, keys, l, hl => by
    have : l = [] := List.length_eq_zero_iff.mp (Nat.le_zero.mp hl)
    subst this
    simp [grow]
  | fuel + 1, keys, l, hl => by
    rw [grow]
    split
    · rename_i he
      intro m hm k hk
      exact ⟨growPass_empty keys l (List.isEmpty_iff.mp he) m hm k hk, by simp [mem_keysOf]⟩
    · rename_i he
      -- a pass that picked something up left a shorter list
      have hlen : (growPass touch keys l).2.2.length ≤ fuel := by
        have h1 := (growPass_merged touch keys l).perm.length_eq
        have h2 : (growPass touch keys l).1.length ≠ 0 := by
          intro h0; exact he (by rw [List.length_eq_zero_iff.mp h0]; rfl)
        rw [List.length_append] at h1
        omega
      intro m hm k hk
      obtain ⟨h1, h2⟩ := grow_left fuel _ _ hlen m hm k hk
      rw [growPass_keys, not_or] at h1
      refine ⟨h1.1, ?_⟩
      rintro ⟨x, hx, hkx⟩
      rcases List.mem_append.mp hx with h | h
      · exact h1.2 ⟨x, h, hkx⟩
      · exact h2 ⟨x, h, hkx⟩

theorem grow_inside : ∀ (fuel : Nat) (keys : Finset K) (l : List M),
    (∀ k ∈ keys, k ∈ S) → Uncut touch S (grow touch fuel keys l).1 →
    ∀ m ∈ (grow touch fuel keys l).1, ∀ k ∈ touch m, k ∈ S
  | 0, _, _, _, _ => by simp [grow]
  | fuel + 1, keys, l, hk, hu => by
    rw [grow] at hu ⊢
    split at hu
    · rename_i he
      rw [if_pos he]; simp
    · rename_i he
      rw [if_neg he]
      have hp := growPass_inside keys l hk fun x hx => hu x (List.mem_append_left _ hx)
      have hk' : ∀ k ∈ (growPass touch keys l).2.1, k ∈ S := by
        intro k hkk
        rcases (growPass_keys keys l k).mp hkk with h | ⟨x, hx, hkx⟩
        · exact hk k h
        · exact hp x hx k hkx
      intro m hm
      rcases List.mem_append.mp hm with h | h
      · exact hp m h
      · exact grow_inside fuel _ _ hk' (fun x hx => hu x (List.mem_append_right _ hx)) m h

/-! ## The blocks -/

theorem grow_rest_length (touch : M → List K) (fuel : Nat) (keys : Finset K) (l : List M) :
    (grow touch fuel keys l).2.length ≤ l.length := by
  have h := (grow_perm touch fuel keys l).length_eq
  rw [List.length_append] at h
  omega

theorem componentsAux_flatten : ∀ (fuel : Nat) (l : List M), l.length ≤ fuel →
    (componentsAux touch fuel l).flatten.Perm l
  | 0, l, hl => by
    have : l = [] := List.length_eq_zero_iff.mp (Nat.le_zero.mp hl)
    subst this
    exact .refl _
  | _ + 1, [], _ => .refl _
  | fuel + 1, seed :: rest, hl => by
    refine List.Perm.cons _ ?_
    have hlen := grow_rest_length touch rest.length (touch seed).toFinset rest
    simp only [List.length_cons] at hl
    refine ((componentsAux_flatten fuel _ (by omega)).append_left _).trans ?_
    exact grow_perm touch _ _ _

/-- **The blocks partition the list.** -/
theorem components_flatten (touch : M → List K) (l : List M) : (components touch l).flatten.Perm l :=
  componentsAux_flatten _ _ (Nat.le_refl _)

theorem mem_of_mem_components (hc : c ∈ components touch l) (hm : m ∈ c) : m ∈ l :=
  (components_flatten touch l).mem_iff.mp (List.mem_flatten.mpr ⟨c, hc, hm⟩)

theorem exists_component (touch : M → List K) (hm : m ∈ l) : ∃ c ∈ components touch l, m ∈ c :=
  List.mem_flatten.mp ((components_flatten touch l).mem_iff.mpr hm)

theorem componentsAux_disjoint : ∀ (fuel : Nat) (l : List M), l.length ≤ fuel →
    (componentsAux touch fuel l).Pairwise fun c d => ∀ k ∈ keysOf touch c, k ∉ keysOf touch d
  | 0, _, _ => by simp [componentsAux]
  | _ + 1, [], _ => by simp [componentsAux]
  | fuel + 1, seed :: rest, hl => by
    rw [componentsAux, List.pairwise_cons]
    have hlen := grow_rest_length touch rest.length (touch seed).toFinset rest
    simp only [List.length_cons] at hl
    refine ⟨fun d hd => ?_, componentsAux_disjoint fuel _ (by omega)⟩
    rintro k ⟨x, hx, hkx⟩ ⟨y, hy, hky⟩
    have hyl : y ∈ (grow touch rest.length (touch seed).toFinset rest).2 :=
      (componentsAux_flatten fuel _ (by omega)).mem_iff.mp (List.mem_flatten.mpr ⟨d, hd, hy⟩)
    obtain ⟨h1, h2⟩ := grow_left _ _ _ (Nat.le_refl _) y hyl k hky
    rcases List.mem_cons.mp hx with rfl | hx
    · exact h1 (List.mem_toFinset.mpr hkx)
    · exact h2 ⟨x, hx, hkx⟩

/-- **Different blocks share no key.** -/
theorem components_disjoint (touch : M → List K) (l : List M) :
    (components touch l).Pairwise fun c d => ∀ k ∈ keysOf touch c, k ∉ keysOf touch d :=
  componentsAux_disjoint _ _ (Nat.le_refl _)

/-- How a block was grown: from a seed, by items that all announce keys. -/
structure Grown (touch : M → List K) (seed : M) (more : List M) : Prop where
  /-- Only the seed may be without keys. -/
  keyed : ∀ m ∈ more, touch m ≠ []
  /-- A set that holds the seed's keys, uncut by the block, holds all its keys. -/
  inside : ∀ S : Set K, (∀ k ∈ touch seed, k ∈ S) → Uncut touch S more →
    ∀ m ∈ more, ∀ k ∈ touch m, k ∈ S

theorem componentsAux_grown : ∀ (fuel : Nat) (l : List M), ∀ c ∈ componentsAux touch fuel l,
    ∃ seed more, c = seed :: more ∧ Grown touch seed more
  | 0, _ => by simp [componentsAux]
  | _ + 1, [] => by simp [componentsAux]
  | fuel + 1, seed :: rest => by
    intro c hc
    rcases List.mem_cons.mp hc with rfl | hc
    · refine ⟨seed, _, rfl, grow_ne_nil _ _ _, fun S hS hu => ?_⟩
      exact grow_inside _ _ _ (fun k hk => hS k (List.mem_toFinset.mp hk)) hu
    · exact componentsAux_grown fuel _ c hc

section

variable (hc : c ∈ components touch l)

include hc

theorem components_grown : ∃ seed more, c = seed :: more ∧ Grown touch seed more :=
  componentsAux_grown _ _ c hc

theorem components_ne_nil : c ≠ [] := by
  obtain ⟨seed, more, rfl, _⟩ := components_grown hc
  simp

/-- A block with an item that announces no key is that item alone. -/
theorem components_keyless (hm : m ∈ c) (h : touch m = []) : c = [m] := by
  obtain ⟨seed, more, rfl, hg⟩ := components_grown hc
  rcases List.mem_cons.mp hm with rfl | hm
  · -- the empty set of keys holds the seed's keys, so it holds the block's
    have hin := hg.inside ∅ (by simp [h]) fun x _ => Or.inr fun k _ => Set.notMem_empty k
    cases more with
    | nil => rfl
    | cons x more =>
      exfalso
      have hx : touch x ≠ [] := hg.keyed x List.mem_cons_self
      obtain ⟨k, hk⟩ := List.exists_mem_of_ne_nil _ hx
      exact hin x List.mem_cons_self k hk
  · exact absurd h (hg.keyed m hm)

/-- **A block cannot be cut.** -/
theorem components_uncut (hu : Uncut touch S c) :
    (∀ m ∈ c, ∀ k ∈ touch m, k ∈ S) ∨ ∀ m ∈ c, ∀ k ∈ touch m, k ∉ S := by
  obtain ⟨seed, more, rfl, hg⟩ := components_grown hc
  have hmore : Uncut touch S more := fun x hx => hu x (List.mem_cons_of_mem _ hx)
  rcases hu seed List.mem_cons_self with hs | hs
  · left
    intro m hm
    rcases List.mem_cons.mp hm with rfl | hm
    · exact hs
    · exact hg.inside S hs hmore m hm
  · right
    intro m hm
    rcases List.mem_cons.mp hm with rfl | hm
    · exact hs
    · refine hg.inside Sᶜ hs (fun x hx => ?_) m hm
      rcases hmore x hx with h | h
      · exact Or.inr fun k hk hc => hc (h k hk)
      · exact Or.inl h

/-- A set that no item of the block straddles, and that has one of its keys, has them all. -/
theorem components_subset (hu : Uncut touch S c) {k : K} (hm : m ∈ c) (hk : k ∈ touch m)
    (hkS : k ∈ S) : keysOf touch c ⊆ S := by
  rcases components_uncut hc hu with h | h
  · rintro q ⟨x, hx, hq⟩
    exact h x hx q hq
  · exact absurd hkS (h m hm k hk)

/-- The blocks other than `c` share no key with it. -/
theorem components_split : ∃ pre post, components touch l = pre ++ c :: post
      ∧ ∀ d ∈ pre ++ post, ∀ k ∈ keysOf touch c, k ∉ keysOf touch d := by
  obtain ⟨pre, post, he⟩ := List.append_of_mem hc
  have hd := components_disjoint touch l
  rw [he, List.pairwise_append, List.pairwise_cons] at hd
  refine ⟨pre, post, he, fun d hd' => ?_⟩
  rcases List.mem_append.mp hd' with h | h
  · exact fun k hkc hkd => hd.2.2 d h c List.mem_cons_self k hkd hkc
  · exact hd.2.1.1 d h

/-- An item of the list straddles no block. -/
theorem uncut_component : Uncut touch (keysOf touch c) l := by
  obtain ⟨pre, post, he, hd⟩ := components_split hc
  intro m hm
  obtain ⟨d, hdm, hmd⟩ := exists_component touch hm
  rw [he] at hdm
  rw [List.perm_middle.mem_iff, List.mem_cons] at hdm
  rcases hdm with rfl | h
  · exact Or.inl fun k hk => ⟨m, hmd, hk⟩
  · exact Or.inr fun k hk hkc => hd d h k hkc ⟨m, hmd, hk⟩

end

/-- Whether an item touches a key of `c`. -/
def hits (touch : M → List K) (c : List M) (m : M) : Bool :=
  (touch m).any fun k => c.any fun x => k ∈ touch x

theorem hits_iff : hits touch c m = true ↔ ∃ k ∈ touch m, k ∈ keysOf touch c := by
  simp only [hits, List.any_eq_true, decide_eq_true_eq, mem_keysOf]

/-- A block with keys is exactly what its keys select from the list. -/
theorem components_eq_filter (hc : c ∈ components touch l) (hk : ∀ m ∈ c, touch m ≠ []) :
    c.Perm (l.filter (hits touch c)) := by
  obtain ⟨pre, post, he, hd⟩ := components_split hc
  have hself : c.filter (hits touch c) = c := by
    refine List.filter_eq_self.mpr fun m hm => hits_iff.mpr ?_
    obtain ⟨k, hkm⟩ := List.exists_mem_of_ne_nil _ (hk m hm)
    exact ⟨k, hkm, m, hm, hkm⟩
  have hnone : ∀ ds : List (List M), (∀ d ∈ ds, d ∈ pre ++ post) →
      ds.flatten.filter (hits touch c) = [] := by
    intro ds hds
    refine List.filter_eq_nil_iff.mpr fun m hm hh => ?_
    obtain ⟨d, hdd, hmd⟩ := List.mem_flatten.mp hm
    obtain ⟨k, hkm, hkc⟩ := hits_iff.mp hh
    exact hd d (hds d hdd) k hkc ⟨m, hmd, hkm⟩
  have hp := (components_flatten touch l).filter (hits touch c)
  rw [he, List.flatten_append, List.flatten_cons, List.filter_append, List.filter_append,
    hnone pre fun d h => List.mem_append_left _ h,
    hnone post fun d h => List.mem_append_right _ h, hself, List.nil_append,
    List.append_nil] at hp
  exact hp

variable {p : M → Bool}

/--
**The blocks are canonical.**

Let `l'` be a reordering of the items of `l` that satisfy `p`, and let `c` be a block
of `l` all of whose items do. Then the block of `l'` that shares an item with `c` is
`c` itself, up to order.
-/
theorem components_unique {l' c' : List M} (hl : l'.Perm (l.filter p)) (hc : c ∈ components touch l)
    (hp : ∀ m ∈ c, p m = true) (hc' : c' ∈ components touch l') {x : M} (hx : x ∈ c)
    (hx' : x ∈ c') : c'.Perm c := by
  by_cases hxk : touch x = []
  · rw [components_keyless hc hx hxk, components_keyless hc' hx' hxk]
  · obtain ⟨k, hk⟩ := List.exists_mem_of_ne_nil _ hxk
    have hsub : ∀ m ∈ l', m ∈ l := fun m hm => (List.mem_filter.mp (hl.mem_iff.mp hm)).1
    have hcl' : ∀ m ∈ c, m ∈ l' := fun m hm =>
      hl.mem_iff.mpr (List.mem_filter.mpr ⟨mem_of_mem_components hc hm, hp m hm⟩)
    -- each block's keys form a set the other block does not straddle
    have hkeys : keysOf touch c' = keysOf touch c := by
      refine Set.Subset.antisymm (components_subset hc' (fun m hm => ?_) hx' hk ⟨x, hx, hk⟩)
        (components_subset hc (fun m hm => uncut_component hc' m (hcl' m hm)) hx hk ⟨x, hx', hk⟩)
      exact uncut_component hc m (hsub m (mem_of_mem_components hc' hm))
    have hnil : ∀ {d : List M} {n : List M}, d ∈ components touch n → x ∈ d →
        ∀ m ∈ d, touch m ≠ [] := by
      intro d n hd hxd m hm he
      have := components_keyless hd hm he
      rw [this, List.mem_singleton] at hxd
      exact hxk (hxd ▸ he)
    have hhits : hits touch c' = hits touch c := by
      funext m
      rw [Bool.eq_iff_iff, hits_iff, hits_iff, hkeys]
    have hfil : (l.filter (hits touch c)).filter p = (l.filter p).filter (hits touch c) := by
      rw [List.filter_filter, List.filter_filter]
      simp only [Bool.and_comm]
    calc c' |>.Perm (l'.filter (hits touch c')) := components_eq_filter hc' (hnil hc' hx')
      _ |>.Perm ((l.filter p).filter (hits touch c)) := by rw [hhits]; exact hl.filter _
      _ |>.Perm c := by
          rw [← hfil]
          refine ((components_eq_filter hc (hnil hc hx)).symm.filter p).trans ?_
          rw [List.filter_eq_self.mpr hp]

/-- A block of the filtered list is a block of the list, when `p` does not split blocks. -/
theorem components_filter {l' c' : List M} (hl : l'.Perm (l.filter p))
    (hp : ∀ c ∈ components touch l, ∀ m ∈ c, p m = true → ∀ m' ∈ c, p m' = true)
    (hc' : c' ∈ components touch l') : ∃ c ∈ components touch l, c'.Perm c := by
  obtain ⟨x, hx'⟩ := List.exists_mem_of_ne_nil _ (components_ne_nil hc')
  have hxf := List.mem_filter.mp (hl.mem_iff.mp (mem_of_mem_components hc' hx'))
  obtain ⟨c, hc, hx⟩ := exists_component touch hxf.1
  exact ⟨c, hc, components_unique hl hc (hp c hc x hx hxf.2) hc' hx hx'⟩

theorem components_perm {l' c' : List M} (hl : l'.Perm l) (hc' : c' ∈ components touch l') :
    ∃ c ∈ components touch l, c'.Perm c :=
  components_filter (p := fun _ => true) (by simpa using hl) (fun _ _ _ _ _ _ _ => rfl) hc'
end PredictionEdge.Lib
