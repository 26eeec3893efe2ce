import Mathlib.Data.List.Forall2
import Mathlib.Order.Defs.Unbundled

namespace Wiring.Action

variable {ε σ α β γ : Type}

/-- The state in which an action ends, whether or not it fails. -/
def finalState : EStateM.Result ε σ α → σ
  | .ok _ s => s
  | .error _ s => s

def outcome : EStateM.Result ε σ α → Except ε α
  | .ok a _ => .ok a
  | .error e _ => .error e

@[simp] theorem pure_apply (a : α) (s : σ) : (pure a : EStateM ε σ α) s = .ok a s := rfl

@[simp] theorem throw_apply (e : ε) (s : σ) : (throw e : EStateM ε σ α) s = .error e s := rfl

@[simp] theorem get_bind (f : σ → EStateM ε σ α) (s : σ) :
    ((get : EStateM ε σ σ) >>= f) s = f s s := rfl

@[simp] theorem throw_bind (e : ε) (f : α → EStateM ε σ β) (s : σ) :
    ((throw e : EStateM ε σ α) >>= f) s = .error e s := rfl

theorem bind_of_ok {m : EStateM ε σ α} {s t : σ} {a : α} (f : α → EStateM ε σ β)
    (h : m s = .ok a t) : (m >>= f) s = f a t := by
  change EStateM.bind m f s = _
  rw [EStateM.bind, h]

theorem bind_of_error {m : EStateM ε σ α} {s t : σ} {e : ε} (f : α → EStateM ε σ β)
    (h : m s = .error e t) : (m >>= f) s = .error e t := by
  change EStateM.bind m f s = _
  rw [EStateM.bind, h]

theorem map_of_ok {m : EStateM ε σ α} {s t : σ} {a : α} (f : α → β) (h : m s = .ok a t) :
    (f <$> m) s = .ok (f a) t := by
  rw [map_eq_pure_bind, bind_of_ok _ h]
  rfl

theorem map_of_error {m : EStateM ε σ α} {s t : σ} {e : ε} (f : α → β) (h : m s = .error e t) :
    (f <$> m) s = .error e t := by
  rw [map_eq_pure_bind, bind_of_error _ h]

theorem eq_of_map_some {m m' : EStateM ε σ α} {s : σ} (h : (some <$> m) s = (some <$> m') s) :
    m s = m' s := by
  cases hm : m s with
  | ok a t =>
      rw [map_of_ok _ hm] at h
      cases hm' : m' s with
      | ok b u =>
          rw [map_of_ok _ hm'] at h
          cases h
          rfl
      | error e u =>
          rw [map_of_error _ hm'] at h
          cases h
  | error e t =>
      rw [map_of_error _ hm] at h
      cases hm' : m' s with
      | ok b u =>
          rw [map_of_ok _ hm'] at h
          cases h
      | error e' u =>
          rw [map_of_error _ hm'] at h
          cases h
          rfl

theorem discard_of_ok {m : EStateM ε σ α} {s t : σ} {a : α} (h : m s = .ok a t) :
    (discard m : EStateM ε σ PUnit) s = .ok () t := map_of_ok _ h

theorem discard_of_error {m : EStateM ε σ α} {s t : σ} {e : ε} (h : m s = .error e t) :
    (discard m : EStateM ε σ PUnit) s = .error e t := map_of_error _ h

theorem finalState_discard (m : EStateM ε σ α) (s : σ) :
    finalState ((discard m : EStateM ε σ PUnit) s) = finalState (m s) := by
  cases hm : m s with
  | ok a t => rw [discard_of_ok hm, finalState, finalState]
  | error e t => rw [discard_of_error hm, finalState, finalState]

theorem discard_eq_error_iff {m : EStateM ε σ α} {s t : σ} {e : ε} :
    (discard m : EStateM ε σ PUnit) s = .error e t ↔ m s = .error e t := by
  cases hm : m s with
  | ok a u => simp [discard_of_ok hm]
  | error e u => simp [discard_of_error hm]

theorem bind_congr {m m' : EStateM ε σ α} {s : σ} (f : α → EStateM ε σ β) (h : m s = m' s) :
    (m >>= f) s = (m' >>= f) s := by
  change EStateM.bind m f s = EStateM.bind m' f s
  rw [EStateM.bind, EStateM.bind, h]

theorem bind_eq_ok_iff {m : EStateM ε σ α} {f : α → EStateM ε σ β} {s t : σ} {b : β} :
    (m >>= f) s = .ok b t ↔ ∃ a mid, m s = .ok a mid ∧ f a mid = .ok b t := by
  cases hm : m s with
  | ok a mid =>
      rw [bind_of_ok f hm]
      constructor
      · exact fun h => ⟨a, mid, rfl, h⟩
      · rintro ⟨_, _, heq, h⟩
        cases heq
        exact h
  | error e mid => simp [bind_of_error f hm]

theorem mapM_cons_eq_ok_iff {f : α → EStateM ε σ β} {a : α} {rest : List α} {s t : σ}
    {results : List β} :
    (a :: rest).mapM f s = .ok results t ↔
      ∃ b mid others, f a s = .ok b mid ∧ rest.mapM f mid = .ok others t ∧
        results = b :: others := by
  rw [List.mapM_cons, bind_eq_ok_iff]
  constructor
  · rintro ⟨b, mid, hb, hrest⟩
    obtain ⟨others, last, hothers, hpure⟩ := bind_eq_ok_iff.mp hrest
    cases hpure
    exact ⟨b, mid, others, hb, hothers, rfl⟩
  · rintro ⟨b, mid, others, hb, hothers, rfl⟩
    exact ⟨b, mid, hb, bind_eq_ok_iff.mpr ⟨others, t, hothers, rfl⟩⟩

theorem length_of_mapM_eq_ok {f : α → EStateM ε σ β} {elements : List α} {s t : σ}
    {results : List β} (h : elements.mapM f s = .ok results t) :
    results.length = elements.length := by
  induction elements generalizing s results with
  | nil =>
      cases h
      rfl
  | cons a rest ih =>
      obtain ⟨b, mid, others, -, hothers, rfl⟩ := mapM_cons_eq_ok_iff.mp h
      rw [List.length_cons, List.length_cons, ih hothers]

theorem mapM_ok_of_invariant {f : α → EStateM ε σ β} {P : σ → Prop} {elements : List α} {s : σ}
    (hstep : ∀ a ∈ elements, ∀ s, P s → ∃ b t, f a s = .ok b t ∧ P t) (hs : P s) :
    ∃ results t, elements.mapM f s = .ok results t ∧ P t := by
  induction elements generalizing s with
  | nil => exact ⟨[], s, rfl, hs⟩
  | cons a rest ih =>
      obtain ⟨b, mid, hb, hmid⟩ := hstep a (by simp) s hs
      obtain ⟨others, t, hothers, ht⟩ := ih (fun a ha => hstep a (by simp [ha])) hmid
      exact ⟨b :: others, t, mapM_cons_eq_ok_iff.mpr ⟨b, mid, others, hb, hothers, rfl⟩, ht⟩

/-- The action that succeeds or fails as told and changes nothing. -/
def answer (result : Except ε α) : EStateM ε σ α := fun s =>
  match result with
  | .ok a => .ok a s
  | .error e => .error e s

theorem outcome_answer (result : Except ε α) (s : σ) : outcome (answer result s) = result := by
  cases result <;> rfl

theorem finalState_answer (result : Except ε α) (s : σ) : finalState (answer result s) = s := by
  cases result <;> rfl

theorem map_answer {m : EStateM ε σ α} {s t : σ} {result : Except ε α} (f : α → β)
    (h : m s = answer result t) : (f <$> m) s = answer (f <$> result) t := by
  cases result with
  | ok a => exact map_of_ok f h
  | error e => exact map_of_error f h

/-- How an action ends: `Q` holds of what it returns and of its last state, or `E` of how it
fails. -/
def Ends (Q : α → σ → Prop) (E : ε → σ → Prop) : EStateM.Result ε σ α → Prop
  | .ok a s => Q a s
  | .error e s => E e s

variable {Q : α → σ → Prop} {E : ε → σ → Prop} {I : σ → Prop}

theorem Ends.mono {Q' : α → σ → Prop} {E' : ε → σ → Prop} {result : EStateM.Result ε σ α}
    (h : Ends Q E result) (hok : ∀ a s, Q a s → Q' a s) (herror : ∀ e s, E e s → E' e s) :
    Ends Q' E' result := by
  cases result with
  | ok a s => exact hok a s h
  | error e s => exact herror e s h

theorem Ends.bind {m : EStateM ε σ α} {f : α → EStateM ε σ β} {s : σ} {Q' : β → σ → Prop}
    (hm : Ends Q E (m s)) (hf : ∀ a t, Q a t → Ends Q' E (f a t)) : Ends Q' E ((m >>= f) s) := by
  cases hresult : m s with
  | ok a t =>
      rw [hresult] at hm
      rw [bind_of_ok f hresult]
      exact hf a t hm
  | error e t =>
      rw [hresult] at hm
      rw [bind_of_error f hresult]
      exact hm

theorem Ends.map {m : EStateM ε σ α} {f : α → β} {s : σ} {Q' : β → σ → Prop}
    (hm : Ends Q E (m s)) (hf : ∀ a t, Q a t → Q' (f a) t) : Ends Q' E ((f <$> m) s) := by
  rw [map_eq_pure_bind]
  exact hm.bind hf

/-- An invariant `I` that each element keeps, while what `R` says of elements and results from then
on is kept by all. -/
theorem Ends.mapM_keeping {f : α → EStateM ε σ β} {R : σ → α → β → Prop} {elements : List α} {s : σ}
    (hstep : ∀ a ∈ elements, ∀ s, I s →
      Ends (fun b t => I t ∧ R t a b ∧ ∀ a b, R s a b → R t a b) E (f a s)) (hs : I s) :
    Ends (fun results t => I t ∧ List.Forall₂ (R t) elements results ∧
      ∀ a b, R s a b → R t a b) E (elements.mapM f s) := by
  induction elements generalizing s with
  | nil => exact ⟨hs, .nil, fun _ _ h => h⟩
  | cons a rest ih =>
      rw [List.mapM_cons]
      apply (hstep a (by simp) s hs).bind
      rintro b mid ⟨hmid, hb, hkeep⟩
      apply (ih (fun a ha => hstep a (by simp [ha])) hmid).bind
      rintro others t ⟨ht, hothers, hmore⟩
      exact ⟨ht, .cons (hmore a b hb) hothers, fun a b h => hmore a b (hkeep a b h)⟩

theorem Ends.mapM {f : α → EStateM ε σ β} {R : α → β → Prop} {elements : List α} {s : σ}
    (hstep : ∀ a ∈ elements, ∀ s, I s → Ends (fun b t => I t ∧ R a b) E (f a s)) (hs : I s) :
    Ends (fun results t => I t ∧ List.Forall₂ R elements results) E (elements.mapM f s) := by
  refine (Ends.mapM_keeping (R := fun _ => R) (fun a ha s hs => ?_) hs).mono
    (fun _ _ h => ⟨h.1, h.2.1⟩) (fun _ _ h => h)
  exact (hstep a ha s hs).mono (fun _ _ h => ⟨h.1, h.2, fun _ _ h => h⟩) (fun _ _ h => h)

theorem Ends.forM {f : α → EStateM ε σ PUnit} {R : α → σ → Prop} {elements : List α} {s : σ}
    (hstep : ∀ a ∈ elements, ∀ s, I s →
      Ends (fun _ t => I t ∧ R a t ∧ ∀ b, R b s → R b t) E (f a s)) (hs : I s) :
    Ends (fun _ t => I t ∧ (∀ a ∈ elements, R a t) ∧ ∀ b, R b s → R b t) E
      (elements.forM f s) := by
  induction elements generalizing s with
  | nil => exact ⟨hs, List.forall_mem_nil _, fun _ h => h⟩
  | cons a rest ih =>
      rw [List.forM_eq_forM, List.forM_cons]
      apply (hstep a (by simp) s hs).bind
      rintro - mid ⟨hmid, ha, hkeep⟩
      refine (ih (fun a ha => hstep a (by simp [ha])) hmid).mono ?_ (fun _ _ h => h)
      rintro - t ⟨ht, hrest, hmore⟩
      exact ⟨ht, List.forall_mem_cons.mpr ⟨hmore a ha, hrest⟩, fun b hb => hmore b (hkeep b hb)⟩

/-- Whatever comes of the action, it leads to a state that `R` relates to the one before. -/
def Leads (R : σ → σ → Prop) (m : EStateM ε σ α) : Prop :=
  ∀ s, R s (finalState (m s))

namespace Leads

variable {R : σ → σ → Prop} {m : EStateM ε σ α}

theorem bind [IsTrans σ R] {f : α → EStateM ε σ β} (hm : Leads R m) (hf : ∀ a, Leads R (f a)) :
    Leads R (m >>= f) := by
  intro s
  have hs := hm s
  cases hresult : m s with
  | ok a t =>
      rw [hresult] at hs
      rw [bind_of_ok _ hresult]
      exact trans_of R hs (hf a t)
  | error e t =>
      rw [hresult] at hs
      rw [bind_of_error _ hresult]
      exact hs

theorem discard (hm : Leads R m) : Leads R (discard m : EStateM ε σ PUnit) := by
  intro s
  have hs := hm s
  cases hresult : m s with
  | ok a t =>
      rw [hresult] at hs
      rw [discard_of_ok hresult]
      exact hs
  | error e t =>
      rw [hresult] at hs
      rw [discard_of_error hresult]
      exact hs

theorem ofState {f : σ → EStateM ε σ α} (hf : ∀ s, Leads R (f s)) : Leads R (get >>= f) :=
  fun s => hf s s

variable [Std.Refl R]

theorem pure (a : α) : Leads R (pure a : EStateM ε σ α) := fun s => refl_of R s

theorem throw (e : ε) : Leads R (throw e : EStateM ε σ α) := fun s => refl_of R s

variable [IsTrans σ R]

theorem map (hm : Leads R m) (f : α → β) : Leads R (f <$> m) := by
  rw [map_eq_pure_bind]
  exact hm.bind fun _ => pure _

theorem mapM {f : α → EStateM ε σ β} {elements : List α} (hf : ∀ a ∈ elements, Leads R (f a)) :
    Leads R (elements.mapM f) := by
  induction elements with
  | nil => exact pure []
  | cons a rest ih =>
      rw [List.mapM_cons]
      refine (hf a (by simp)).bind fun b => ?_
      exact (ih fun other hother => hf other (by simp [hother])).bind fun others => pure _

theorem forM {f : α → EStateM ε σ PUnit} {elements : List α}
    (hf : ∀ a ∈ elements, Leads R (f a)) : Leads R (elements.forM f) := by
  induction elements with
  | nil => exact pure _
  | cons a rest ih =>
      rw [List.forM_eq_forM, List.forM_cons]
      exact (hf a (by simp)).bind fun _ => ih fun other hother => hf other (by simp [hother])

theorem finalState_bind {f : α → EStateM ε σ β} (hf : ∀ a, Leads Eq (f a))
    (m : EStateM ε σ α) (s : σ) : finalState ((m >>= f) s) = finalState (m s) := by
  cases hm : m s with
  | ok a t =>
      rw [bind_of_ok _ hm]
      exact (hf a t).symm
  | error e t =>
      rw [bind_of_error _ hm]
      rfl

end Leads

def mapState {τ : Type} (f : σ → τ) : EStateM.Result ε σ α → EStateM.Result ε τ α
  | .ok a s => .ok a (f s)
  | .error e s => .error e (f s)

/-- What the first action does to a state, the second does to the image of the state. -/
def Carries {τ : Type} (f : σ → τ) (m : EStateM ε σ α) (n : EStateM ε τ α) : Prop :=
  ∀ s, n (f s) = mapState f (m s)

namespace Carries

variable {τ : Type} {f : σ → τ} {m : EStateM ε σ α} {n : EStateM ε τ α}

theorem pure (a : α) : Carries f (pure a : EStateM ε σ α) (pure a) := fun _ => rfl

theorem throw (e : ε) : Carries f (throw e : EStateM ε σ α) (throw e) := fun _ => rfl

theorem bind (hm : Carries f m n) {g : α → EStateM ε σ β} {h : α → EStateM ε τ β}
    (hg : ∀ a, Carries f (g a) (h a)) : Carries f (m >>= g) (n >>= h) := by
  intro s
  have hs := hm s
  cases hresult : m s with
  | ok a t =>
      rw [hresult] at hs
      rw [bind_of_ok _ hresult, bind_of_ok _ hs]
      exact hg a t
  | error e t =>
      rw [hresult] at hs
      rw [bind_of_error _ hresult, bind_of_error _ hs]
      rfl

theorem mapM {g : γ → EStateM ε σ β} {h : γ → EStateM ε τ β} {elements : List γ}
    (hg : ∀ c ∈ elements, Carries f (g c) (h c)) :
    Carries f (elements.mapM g) (elements.mapM h) := by
  induction elements with
  | nil => exact pure []
  | cons c rest ih =>
      rw [List.mapM_cons, List.mapM_cons]
      refine (hg c (by simp)).bind fun b => ?_
      exact (ih fun other hother => hg other (by simp [hother])).bind fun others => pure _

end Carries

/-- Two actions end alike: with the same result, in states that `R` relates. -/
inductive Parallel {τ : Type} (R : σ → τ → Prop) :
    EStateM.Result ε σ α → EStateM.Result ε τ α → Prop
  | ok {a : α} {s : σ} {t : τ} (hstates : R s t) : Parallel R (.ok a s) (.ok a t)
  | error {e : ε} {s : σ} {t : τ} (hstates : R s t) : Parallel R (.error e s) (.error e t)

namespace Parallel

variable {τ : Type} {R : σ → τ → Prop} {m : EStateM ε σ α} {n : EStateM ε τ α} {s : σ} {t : τ}

theorem outcome_eq {first : EStateM.Result ε σ α} {second : EStateM.Result ε τ α}
    (h : Parallel R first second) : outcome first = outcome second := by
  cases h <;> rfl

theorem mono {R' : σ → τ → Prop} {first : EStateM.Result ε σ α} {second : EStateM.Result ε τ α}
    (h : Parallel R first second)
    (hmono : R (finalState first) (finalState second) →
      R' (finalState first) (finalState second)) : Parallel R' first second := by
  cases h with
  | ok hstates => exact .ok (hmono hstates)
  | error hstates => exact .error (hmono hstates)

theorem bind {f : α → EStateM ε σ β} {g : α → EStateM ε τ β} (h : Parallel R (m s) (n t))
    (hrest : ∀ a s' t', m s = .ok a s' → R s' t' → Parallel R (f a s') (g a t')) :
    Parallel R ((m >>= f) s) ((n >>= g) t) := by
  cases hm : m s with
  | ok a s' =>
      cases hn : n t with
      | ok b t' =>
          rw [hm, hn] at h
          cases h with
          | ok hstates =>
              rw [bind_of_ok _ hm, bind_of_ok _ hn]
              exact hrest a s' t' hm hstates
      | error e t' =>
          rw [hm, hn] at h
          cases h
  | error e s' =>
      cases hn : n t with
      | ok b t' =>
          rw [hm, hn] at h
          cases h
      | error e' t' =>
          rw [hm, hn] at h
          cases h with
          | error hstates =>
              rw [bind_of_error _ hm, bind_of_error _ hn]
              exact .error hstates

theorem discard (h : Parallel R (m s) (n t)) :
    Parallel R ((discard m : EStateM ε σ PUnit) s) ((discard n : EStateM ε τ PUnit) t) :=
  h.bind fun _ _ _ _ hstates => .ok hstates

theorem mapM {f : γ → EStateM ε σ β} {g : γ → EStateM ε τ β} {elements : List γ}
    (hstep : ∀ c ∈ elements, ∀ s t, R s t → Parallel R (f c s) (g c t)) (h : R s t) :
    Parallel R (elements.mapM f s) (elements.mapM g t) := by
  induction elements generalizing s t with
  | nil => exact .ok h
  | cons c rest ih =>
      rw [List.mapM_cons, List.mapM_cons]
      refine (hstep c (by simp) s t h).bind fun b s' t' _ hmid => ?_
      refine (ih (fun other hother => hstep other (by simp [hother])) hmid).bind ?_
      exact fun others s'' t'' _ hlast => .ok hlast

theorem forM {f : γ → EStateM ε σ PUnit} {g : γ → EStateM ε τ PUnit} {elements : List γ}
    (hstep : ∀ c ∈ elements, ∀ s t, R s t → Parallel R (f c s) (g c t)) (h : R s t) :
    Parallel R (elements.forM f s) (elements.forM g t) := by
  induction elements generalizing s t with
  | nil => exact .ok h
  | cons c rest ih =>
      rw [List.forM_eq_forM, List.forM_cons, List.forM_eq_forM, List.forM_cons]
      refine (hstep c (by simp) s t h).bind fun _ s' t' _ hmid => ?_
      exact ih (fun other hother => hstep other (by simp [hother])) hmid

end Parallel

/-- The states in which the actions on the elements of a list start, one after the other, until one
of them fails. -/
def starts (f : α → EStateM ε σ β) : List α → σ → List (α × σ)
  | [], _ => []
  | a :: rest, s =>
    (a, s) ::
      match f a s with
      | .ok _ t => starts f rest t
      | .error _ _ => []

theorem finalState_forM (f : α → EStateM ε σ PUnit) (elements : List α) (s : σ) :
    finalState (elements.forM f s) = finalState (elements.mapM f s) := by
  induction elements generalizing s with
  | nil => rfl
  | cons a rest ih =>
      rw [List.forM_eq_forM, List.forM_cons, List.mapM_cons]
      cases ha : f a s with
      | error e t =>
          rw [bind_of_error _ ha, bind_of_error _ ha]
          rfl
      | ok _ t =>
          rw [bind_of_ok _ ha, bind_of_ok _ ha, ← List.forM_eq_forM, ih]
          cases hrest : rest.mapM f t with
          | error e u => rw [bind_of_error _ hrest]
          | ok _ u =>
              rw [bind_of_ok _ hrest]
              rfl

theorem mapM_congr {f : α → EStateM ε σ γ} {g : β → EStateM ε σ γ} {as : List α} {bs : List β}
    {s : σ}
    (hstep : List.Forall₂ (fun a b => ∀ s, I s →
      f a s = g b s ∧ Ends (fun _ t => I t) (fun _ _ => True) (f a s)) as bs) (hs : I s) :
    as.mapM f s = bs.mapM g s := by
  induction hstep generalizing s with
  | nil => rfl
  | @cons a b as bs hhead _ ih =>
      obtain ⟨heq, hkeeps⟩ := hhead s hs
      rw [List.mapM_cons, List.mapM_cons]
      cases hresult : f a s with
      | ok c t =>
          rw [bind_of_ok _ hresult, bind_of_ok _ (heq.symm.trans hresult)]
          rw [hresult] at hkeeps
          have hrest := ih (s := t) hkeeps
          cases htail : as.mapM f t with
          | ok others last => rw [bind_of_ok _ htail, bind_of_ok _ (hrest.symm.trans htail)]
          | error e last => rw [bind_of_error _ htail, bind_of_error _ (hrest.symm.trans htail)]
      | error e t => rw [bind_of_error _ hresult, bind_of_error _ (heq.symm.trans hresult)]

end Wiring.Action
