import Wiring.Factory.Cache
import Wiring.Proofs.Action
import Wiring.Proofs.Registry.Coherence

namespace Wiring

namespace FactoryCache

variable {φ : Type} {c : FactoryCache φ} {key other : Key} {factory : φ}

theorem shardIndex_congr (c : FactoryCache φ) (hkey : (key == other) = true) :
    c.shardIndex key = c.shardIndex other := by
  rw [shardIndex, shardIndex, Key.digest_congr hkey]

theorem shard_congr (c : FactoryCache φ) (hindex : c.shardIndex key = c.shardIndex other) :
    c.shard key = c.shard other :=
  congrArg (fun i : Fin 16 => c.shards[i]) hindex

theorem cell?_congr (c : FactoryCache φ) (hkey : (key == other) = true) :
    c.cell? key = c.cell? other := by
  have hsame : (fun cell : Key × Option φ => cell.1 == key) = fun cell => cell.1 == other := by
    funext cell
    exact Key.beq_congr_right hkey cell.1
  rw [cell?, cell?, c.shard_congr (c.shardIndex_congr hkey), hsame]

theorem cell?_set (c : FactoryCache φ) (key other : Key) (cells : List (Key × Option φ))
    (compilations : Nat) :
    cell? ⟨c.hash, c.shards.set (c.shardIndex key) cells (c.shardIndex key).isLt, compilations⟩
        other =
      if c.shardIndex key = c.shardIndex other then (cells.find? (·.1 == other)).map (·.2)
      else c.cell? other := by
  unfold cell? shard
  change (((c.shards.set (c.shardIndex key) cells)[(c.shardIndex other).val]).find? _).map _ = _
  rw [Vector.getElem_set]
  by_cases hindex : c.shardIndex key = c.shardIndex other
  · simp [hindex]
  · simp [hindex, Fin.val_inj]

theorem cell?_reserve (c : FactoryCache φ) (key other : Key) :
    (c.reserve key).cell? other =
      if key == other then some (c.get? key) else c.cell? other := by
  unfold reserve
  split
  next factory hcell =>
    split
    next hkey => rw [← c.cell?_congr hkey, hcell, get?, hcell, Option.join_some]
    next => rfl
  next hcell =>
    rw [cell?_set]
    by_cases hkey : (key == other) = true
    · have hnone : c.cell? other = none := c.cell?_congr hkey ▸ hcell
      have hfresh : (c.shard key).find? (·.1 == other) = none := by
        rw [c.shard_congr (c.shardIndex_congr hkey)]
        exact Option.map_eq_none_iff.mp hnone
      rw [if_pos (c.shardIndex_congr hkey), if_pos hkey, List.find?_append, hfresh, get?, hcell]
      simp [hkey]
    · rw [if_neg hkey]
      split
      next hindex =>
        rw [List.find?_append, c.shard_congr hindex]
        simp [hkey, cell?]
      next => rfl

theorem find?_fill (cells : List (Key × Option φ)) (key other : Key) (factory : φ) :
    ((cells.map fun cell => if cell.1 == key then (cell.1, some factory) else cell).find?
        (·.1 == other)).map (·.2) =
      if key == other then ((cells.find? (·.1 == key)).map (·.2)).map fun _ => some factory
      else (cells.find? (·.1 == other)).map (·.2) := by
  induction cells with
  | nil => simp
  | cons cell rest ih =>
      rw [List.map_cons, List.find?_cons, List.find?_cons, List.find?_cons]
      by_cases hown : (cell.1 == key) = true
      · by_cases hkey : (key == other) = true
        · simp [hown, hkey, Key.beq_trans hown hkey]
        · have hother : ¬ (cell.1 == other) = true := fun h =>
            hkey (Key.beq_trans (Key.beq_symm hown) h)
          simpa [hown, hkey, hother] using ih
      · by_cases hother : (cell.1 == other) = true
        · have hkey : ¬ (key == other) = true := fun h =>
            hown (Key.beq_trans hother (Key.beq_symm h))
          simp [hown, hother, hkey]
        · simpa [hown, hother] using ih

theorem cell?_fill (c : FactoryCache φ) (key other : Key) (factory : φ) :
    (c.fill key factory).cell? other =
      if key == other then (c.cell? key).map fun _ => some factory else c.cell? other := by
  unfold fill
  rw [cell?_set, find?_fill]
  by_cases hkey : (key == other) = true
  · rw [if_pos (c.shardIndex_congr hkey), if_pos hkey, if_pos hkey]
    rfl
  · rw [if_neg hkey, if_neg hkey]
    split
    next hindex =>
      rw [c.shard_congr hindex]
      rfl
    next => rfl

@[simp] theorem get?_empty (hash : List Datum → UInt64) (key : Key) :
    (empty hash : FactoryCache φ).get? key = none := by
  simp [get?, cell?, shard, empty]

@[simp] theorem get?_reserve (c : FactoryCache φ) (key other : Key) :
    (c.reserve key).get? other = c.get? other := by
  rw [get?, cell?_reserve]
  split
  next hkey => rw [Option.join_some, get?, get?, c.cell?_congr hkey]
  next => rfl

theorem get?_fill_reserve (c : FactoryCache φ) (key other : Key) (factory : φ) :
    ((c.reserve key).fill key factory).get? other =
      if key == other then some factory else c.get? other := by
  rw [get?, cell?_fill]
  split
  next => simp [cell?_reserve]
  next => exact c.get?_reserve key other

theorem reserve_of_cell? {found : Option φ} (h : c.cell? key = some found) :
    c.reserve key = c := by
  rw [reserve, h]

theorem reserve_of_get? (h : c.get? key = some factory) : c.reserve key = c := by
  exact reserve_of_cell? (Option.join_eq_some_iff.mp h)

theorem reserve_reserve (c : FactoryCache φ) (key : Key) :
    (c.reserve key).reserve key = c.reserve key := by
  have hcell : (c.reserve key).cell? key = some (c.get? key) := by
    rw [cell?_reserve, if_pos BEq.rfl]
  exact reserve_of_cell? hcell

def countFilled (cells : List (Key × Option φ)) : Nat :=
  cells.countP (·.2.isSome)

theorem countP_flatten_set {α : Type} (p : α → Bool) (lists : List (List α)) (i : Nat)
    (h : i < lists.length) (l : List α) :
    (lists.set i l).flatten.countP p + lists[i].countP p =
      lists.flatten.countP p + l.countP p := by
  induction lists generalizing i with
  | nil => cases h
  | cons first rest ih =>
      cases i with
      | zero =>
          simp only [List.set_cons_zero, List.flatten_cons, List.countP_append,
            List.getElem_cons_zero]
          omega
      | succ i =>
          have hrest := ih i (Nat.lt_of_succ_lt_succ h)
          simp only [List.set_cons_succ, List.flatten_cons, List.countP_append,
            List.getElem_cons_succ]
          omega

theorem size_set (c : FactoryCache φ) (key : Key) (cells : List (Key × Option φ))
    (compilations : Nat) :
    size ⟨c.hash, c.shards.set (c.shardIndex key) cells (c.shardIndex key).isLt, compilations⟩ +
      countFilled (c.shard key) = c.size + countFilled cells := by
  unfold size
  rw [Vector.toList_set]
  exact countP_flatten_set _ c.shards.toList (c.shardIndex key) (by simp) cells

@[simp] theorem size_reserve (c : FactoryCache φ) (key : Key) : (c.reserve key).size = c.size := by
  unfold reserve
  split
  next => rfl
  next =>
    have hsize := c.size_set key (c.shard key ++ [(key, none)]) c.compilations
    have hsame : countFilled (c.shard key ++ [(key, none)]) = countFilled (c.shard key) := by
      simp [countFilled]
    rw [hsame] at hsize
    exact Nat.add_right_cancel hsize

def Apart {α : Type} (cells : List (Key × α)) : Prop :=
  cells.Pairwise fun a b => ¬ (a.1 == b.1) = true

theorem countFilled_fill {cells : List (Key × Option φ)} (hapart : Apart cells)
    (hempty : (cells.find? (·.1 == key)).map (·.2) = some none) (factory : φ) :
    countFilled (cells.map fun cell =>
      if cell.1 == key then (cell.1, some factory) else cell) = countFilled cells + 1 := by
  induction cells with
  | nil => cases hempty
  | cons cell rest ih =>
      obtain ⟨hhead, hrest⟩ := List.pairwise_cons.mp hapart
      unfold countFilled at ih ⊢
      rw [List.map_cons, List.countP_cons, List.countP_cons]
      by_cases hown : (cell.1 == key) = true
      · -- No other cell belongs to the key.
        have hothers : (rest.map fun cell =>
            if cell.1 == key then (cell.1, some factory) else cell) = rest := by
          refine List.map_congr_left (fun other hother => if_neg fun hkey => ?_) |>.trans
            (List.map_id rest)
          exact hhead other hother (Key.beq_trans hown (Key.beq_symm hkey))
        have hnone : cell.2 = none := by simpa [hown] using hempty
        simp [hothers, hown, hnone]
      · have hfound : (rest.find? (·.1 == key)).map (·.2) = some none := by
          simpa [hown] using hempty
        rw [ih hrest hfound, if_neg hown]
        omega

/-- The cells of every shard have different keys. -/
def Tidy (c : FactoryCache φ) : Prop :=
  ∀ i : Fin 16, Apart c.shards[i]

theorem tidy_empty (hash : List Datum → UInt64) : (empty hash : FactoryCache φ).Tidy := by
  intro i
  simp [empty, Apart]

theorem Tidy.set (h : c.Tidy) {cells : List (Key × Option φ)} (hcells : Apart cells)
    (i : Fin 16) (compilations : Nat) : Tidy ⟨c.hash, c.shards.set i cells, compilations⟩ := by
  intro j
  change Apart (c.shards.set i cells)[j.val]
  rw [Vector.getElem_set]
  split
  · exact hcells
  · exact h j

theorem Tidy.reserve (h : c.Tidy) (key : Key) : (c.reserve key).Tidy := by
  unfold FactoryCache.reserve
  split
  next => exact h
  next hcell =>
    refine h.set ?_ _ _
    refine List.pairwise_append.mpr ⟨h _, List.pairwise_singleton _ _, ?_⟩
    intro cell hmem fresh hfresh hkey
    rw [List.mem_singleton] at hfresh
    subst hfresh
    exact List.find?_eq_none.mp (Option.map_eq_none_iff.mp hcell) cell hmem hkey

theorem Tidy.fill (h : c.Tidy) (key : Key) (factory : φ) : (c.fill key factory).Tidy := by
  refine h.set (List.pairwise_map.mpr ((h (c.shardIndex key)).imp ?_)) _ _
  intro a b hab
  split <;> split <;> exact hab

theorem size_fill (h : c.Tidy) (hempty : c.cell? key = some none) (factory : φ) :
    (c.fill key factory).size = c.size + 1 := by
  have hsize := c.size_set key ((c.shard key).map fun cell =>
    if cell.1 == key then (cell.1, some factory) else cell) (c.compilations + 1)
  have hapart : Apart (c.shard key) := h (c.shardIndex key)
  rw [countFilled_fill hapart hempty factory] at hsize
  unfold FactoryCache.fill
  omega

theorem getOrAdd_of_stored {m : Type → Type} [Monad m] {compile : m φ}
    (hstored : c.get? key = some factory) : c.getOrAdd key compile = pure (factory, c) := by
  unfold getOrAdd
  simp only [reserve_of_get? hstored, hstored]

theorem getOrAdd_of_missing {m : Type → Type} [Monad m] {compile : m φ}
    (hmissing : c.get? key = none) : c.getOrAdd key compile = (do
      let factory ← compile
      return (factory, (c.reserve key).fill key factory)) := by
  unfold getOrAdd
  simp only [get?_reserve, hmissing]

section

variable {σ ε : Type} {cache : σ → FactoryCache φ} {withCache : σ → FactoryCache φ → σ}
  {compile : EStateM ε σ φ} {s : σ}

theorem obtain_of_stored (hsame : ∀ s, withCache s (cache s) = s)
    (hstored : (cache s).get? key = some factory) :
    obtain cache withCache key compile s = .ok factory s := by
  have hreserve := reserve_of_get? hstored
  change ((cache (withCache s ((cache s).reserve key))).getOrAdd key compile >>= fun answer => do
    modify fun s => withCache s answer.2
    return answer.1) (withCache s ((cache s).reserve key)) = _
  rw [hreserve, hsame, getOrAdd_of_stored hstored]
  exact congrArg (EStateM.Result.ok factory) (hsame s)

/-- Without a stored factory the compilation is run, on the state in which the key has a cell. -/
theorem obtain_of_missing (hget : ∀ s c, cache (withCache s c) = c)
    (hmissing : (cache s).get? key = none) :
    obtain cache withCache key compile s =
      match compile (withCache s ((cache s).reserve key)) with
      | .ok factory t =>
        .ok factory (withCache t (((cache s).reserve key).fill key factory))
      | .error e t => .error e t := by
  change ((cache (withCache s ((cache s).reserve key))).getOrAdd key compile >>= fun answer => do
    modify fun s => withCache s answer.2
    return answer.1) (withCache s ((cache s).reserve key)) = _
  rw [hget, getOrAdd_of_missing ((get?_reserve _ _ _).trans hmissing), reserve_reserve, bind_assoc]
  cases hresult : compile (withCache s ((cache s).reserve key)) with
  | ok factory t => exact Action.bind_of_ok _ hresult
  | error e t => exact Action.bind_of_error _ hresult

end

end FactoryCache

/-- Factories by key, oldest first. No two keys are equal. -/
structure FactoryMap (φ : Type) where
  entries : List (Key × φ)
  apart : FactoryCache.Apart entries

namespace FactoryMap

variable {φ : Type} {m : FactoryMap φ} {key other : Key}

def empty : FactoryMap φ :=
  ⟨[], .nil⟩

def get? (m : FactoryMap φ) (key : Key) : Option φ :=
  (m.entries.find? (·.1 == key)).map (·.2)

def size (m : FactoryMap φ) : Nat :=
  m.entries.length

def add (m : FactoryMap φ) (key : Key) (factory : φ) (hmissing : m.get? key = none) :
    FactoryMap φ where
  entries := m.entries ++ [(key, factory)]
  apart := by
    refine List.pairwise_append.mpr ⟨m.apart, List.pairwise_singleton _ _, ?_⟩
    intro entry hentry fresh hfresh hkey
    rw [List.mem_singleton] at hfresh
    subst hfresh
    exact List.find?_eq_none.mp (Option.map_eq_none_iff.mp hmissing) entry hentry hkey

theorem get?_congr (m : FactoryMap φ) (hkey : (key == other) = true) :
    m.get? key = m.get? other := by
  have hsame : (fun entry : Key × φ => entry.1 == key) = fun entry => entry.1 == other := by
    funext entry
    exact Key.beq_congr_right hkey entry.1
  rw [get?, get?, hsame]

theorem size_add (m : FactoryMap φ) (factory : φ) (hmissing : m.get? key = none) :
    (m.add key factory hmissing).size = m.size + 1 := by
  simp [size, add]

theorem get?_of_prefix {n : FactoryMap φ} (h : m.entries <+: n.entries) {factory : φ}
    (hstored : m.get? key = some factory) : n.get? key = some factory := by
  obtain ⟨entry, hentry, hfactory⟩ := Option.map_eq_some_iff.mp hstored
  refine Option.map_eq_some_iff.mpr ⟨entry, ?_, hfactory⟩
  obtain ⟨more, hmore⟩ := h
  rw [← hmore, List.find?_append, hentry, Option.some_or]

theorem get?_add (m : FactoryMap φ) (factory : φ) (hmissing : m.get? key = none) (other : Key) :
    (m.add key factory hmissing).get? other =
      if key == other then some factory else m.get? other := by
  unfold get? add
  rw [List.find?_append, Option.map_or]
  by_cases hkey : (key == other) = true
  · have hnone := m.get?_congr hkey ▸ hmissing
    rw [get?, Option.map_eq_none_iff] at hnone
    simp [hkey, hnone]
  · simp [hkey]

end FactoryMap

/-- One use of a cache. Compilations are code that works on what is outside of the cache, and they
may fail. -/
inductive CacheRequest (ε τ φ : Type) where
  | getOrCompile (key : Key) (compile : EStateM ε τ φ)
  | get (key : Key)
  | size
  | isEmpty
  | compilations

inductive CacheAnswer (ε φ : Type) where
  | outcome (result : Except ε φ)
  | stored (factory : Option φ)
  | number (n : Nat)
  | truth (b : Bool)

section

variable {ε τ φ : Type}

namespace FactoryMap

/-- The factory of a key. If none is stored, the compilation is run; what it makes is stored, and a
failure stores nothing. -/
def getOrCompile (m : FactoryMap φ) (key : Key) (compile : EStateM ε τ φ) (t : τ) :
    Except ε φ × FactoryMap φ × τ :=
  match hstored : m.get? key with
  | some factory => (.ok factory, m, t)
  | none =>
    match compile t with
    | .ok factory t => (.ok factory, m.add key factory hstored, t)
    | .error e t => (.error e, m, t)

/-- How a map answers. It holds as many factories as were compiled. -/
def serve : CacheRequest ε τ φ → StateM (FactoryMap φ × τ) (CacheAnswer ε φ)
  | .getOrCompile key compile => fun (m, t) =>
    let (result, s) := m.getOrCompile key compile t
    (.outcome result, s)
  | .get key => fun (m, t) => (.stored (m.get? key), m, t)
  | .size => fun (m, t) => (.number m.size, m, t)
  | .isEmpty => fun (m, t) => (.truth (m.size == 0), m, t)
  | .compilations => fun (m, t) => (.number m.size, m, t)

variable {m : FactoryMap φ} {key : Key} {compile : EStateM ε τ φ}

theorem getOrCompile_of_stored {factory : φ} (hstored : m.get? key = some factory) (t : τ) :
    m.getOrCompile key compile t = (.ok factory, m, t) := by
  unfold getOrCompile
  split
  next found hfound =>
    rw [hstored, Option.some.injEq] at hfound
    rw [hfound]
  next hmissing =>
    rw [hstored] at hmissing
    cases hmissing

theorem getOrCompile_of_missing (hmissing : m.get? key = none) (t : τ) :
    m.getOrCompile key compile t =
      match compile t with
      | .ok factory t => (.ok factory, m.add key factory hmissing, t)
      | .error e t => (.error e, m, t) := by
  unfold getOrCompile
  split
  next found hfound =>
    rw [hmissing] at hfound
    cases hfound
  next => rfl

theorem prefix_getOrCompile (m : FactoryMap φ) (key : Key) (compile : EStateM ε τ φ) (t : τ) :
    m.entries <+: (m.getOrCompile key compile t).2.1.entries := by
  cases hstored : m.get? key with
  | some factory =>
      have hsame : (m.getOrCompile key compile t).2.1 = m := by rw [getOrCompile_of_stored hstored]
      exact hsame.symm ▸ List.prefix_rfl
  | none =>
      rw [getOrCompile_of_missing hstored]
      cases compile t with
      | ok factory t => exact List.prefix_append _ _
      | error e t => exact List.prefix_rfl

theorem prefix_serve (s : FactoryMap φ × τ) (request : CacheRequest ε τ φ) :
    s.1.entries <+: (serve request s).2.1.entries := by
  cases request with
  | getOrCompile key compile => exact s.1.prefix_getOrCompile key compile s.2
  | _ => exact List.prefix_rfl

theorem prefix_serveAll (s : FactoryMap φ × τ) (requests : List (CacheRequest ε τ φ)) :
    s.1.entries <+: (requests.mapM serve s).2.1.entries := by
  induction requests generalizing s with
  | nil => exact List.prefix_rfl
  | cons request rest ih =>
      rw [List.mapM_cons]
      exact (prefix_serve s request).trans (ih _)

end FactoryMap

namespace FactoryCache

def outside (code : EStateM ε τ φ) : EStateM ε (FactoryCache φ × τ) φ := fun (c, t) =>
  match code t with
  | .ok factory t => .ok factory (c, t)
  | .error e t => .error e (c, t)

def serve : CacheRequest ε τ φ → StateM (FactoryCache φ × τ) (CacheAnswer ε φ)
  | .getOrCompile key compile => fun s =>
    match obtain Prod.fst (fun s c => (c, s.2)) key (outside compile) s with
    | .ok factory s => (.outcome (.ok factory), s)
    | .error e s => (.outcome (.error e), s)
  | .get key => fun (c, t) => (.stored (c.get? key), c, t)
  | .size => fun (c, t) => (.number c.size, c, t)
  | .isEmpty => fun (c, t) => (.truth c.isEmpty, c, t)
  | .compilations => fun (c, t) => (.number c.compilations, c, t)

/-- The cache is tidy, and all that can be asked of it is as in the map. -/
structure Represents (c : FactoryCache φ) (m : FactoryMap φ) : Prop where
  tidy : c.Tidy
  get? : ∀ key, c.get? key = m.get? key
  size : c.size = m.size
  compilations : c.compilations = m.size

variable {c : FactoryCache φ} {m : FactoryMap φ} {key : Key}

theorem represents_empty (hash : List Datum → UInt64) :
    (empty hash).Represents (.empty : FactoryMap φ) where
  tidy := tidy_empty hash
  get? := fun key => (get?_empty hash key).trans rfl
  size := by
    simp [size, empty, FactoryMap.size, FactoryMap.empty]
  compilations := rfl

theorem compilations_reserve (c : FactoryCache φ) (key : Key) :
    (c.reserve key).compilations = c.compilations := by
  unfold reserve
  split <;> rfl

theorem Represents.reserve (h : c.Represents m) (key : Key) : (c.reserve key).Represents m where
  tidy := h.tidy.reserve key
  get? := fun other => (c.get?_reserve key other).trans (h.get? other)
  size := (c.size_reserve key).trans h.size
  compilations := (c.compilations_reserve key).trans h.compilations

theorem Represents.fill (h : c.Represents m) (hmissing : m.get? key = none) (factory : φ) :
    ((c.reserve key).fill key factory).Represents (m.add key factory hmissing) where
  tidy := (h.tidy.reserve key).fill key factory
  get? := by
    intro other
    rw [get?_fill_reserve, FactoryMap.get?_add, h.get? other]
  size := by
    have hempty : (c.reserve key).cell? key = some none := by
      rw [cell?_reserve, if_pos BEq.rfl, h.get?, hmissing]
    rw [size_fill (h.tidy.reserve key) hempty, c.size_reserve, h.size, FactoryMap.size_add]
  compilations := by
    change (c.reserve key).compilations + 1 = _
    rw [c.compilations_reserve, h.compilations, FactoryMap.size_add]

def Matches (s : FactoryCache φ × τ) (t : FactoryMap φ × τ) : Prop :=
  s.1.Represents t.1 ∧ s.2 = t.2

theorem Matches.serve {s : FactoryCache φ × τ} {t : FactoryMap φ × τ} (h : Matches s t)
    (request : CacheRequest ε τ φ) :
    (FactoryCache.serve request s).1 = (FactoryMap.serve request t).1 ∧
      Matches (FactoryCache.serve request s).2 (FactoryMap.serve request t).2 := by
  obtain ⟨c, world⟩ := s
  obtain ⟨m, other⟩ := t
  obtain ⟨hmap, rfl⟩ : c.Represents m ∧ world = other := h
  cases request with
  | getOrCompile key compile =>
      simp only [FactoryCache.serve, FactoryMap.serve]
      cases hstored : m.get? key with
      | some factory =>
          rw [FactoryMap.getOrCompile_of_stored hstored,
            obtain_of_stored (fun _ => rfl) ((hmap.get? key).trans hstored)]
          exact ⟨rfl, hmap, rfl⟩
      | none =>
          rw [FactoryMap.getOrCompile_of_missing hstored,
            obtain_of_missing (fun _ _ => rfl) ((hmap.get? key).trans hstored)]
          unfold outside
          dsimp only
          cases compile world with
          | ok factory _ => exact ⟨rfl, hmap.fill hstored factory, rfl⟩
          | error e _ => exact ⟨rfl, hmap.reserve key, rfl⟩
  | get key => exact ⟨congrArg CacheAnswer.stored (hmap.get? key), hmap, rfl⟩
  | size => exact ⟨congrArg CacheAnswer.number hmap.size, hmap, rfl⟩
  | isEmpty => exact ⟨congrArg (CacheAnswer.truth <| · == 0) hmap.size, hmap, rfl⟩
  | compilations => exact ⟨congrArg CacheAnswer.number hmap.compilations, hmap, rfl⟩

/-- All uses of a cache, one after the other, are uses of the map. -/
theorem Matches.serveAll {s : FactoryCache φ × τ} {t : FactoryMap φ × τ} (h : Matches s t)
    (requests : List (CacheRequest ε τ φ)) :
    (requests.mapM FactoryCache.serve s).1 = (requests.mapM FactoryMap.serve t).1 ∧
      Matches (requests.mapM FactoryCache.serve s).2 (requests.mapM FactoryMap.serve t).2 := by
  induction requests generalizing s t with
  | nil => exact ⟨rfl, h⟩
  | cons request rest ih =>
      rw [List.mapM_cons, List.mapM_cons]
      obtain ⟨hanswer, hserved⟩ := h.serve request
      obtain ⟨hrest, hlast⟩ := ih hserved
      exact ⟨congrArg₂ List.cons hanswer hrest, hlast⟩

end FactoryCache

end

end Wiring
