import Wiring.Proofs.Container.Session
import Wiring.Proofs.Factory.Simulation

/-!
Ledgers: what the operations of containers come to. Every operation amounts to log entries, to the
compilation of plans and to calls of factories that were compiled before, whichever way it was asked
for; so what these steps keep is kept by every session.
-/

namespace Wiring

variable {H : Host}

/-- A factory with the plan and the key that it was compiled for. -/
structure Issue (H : Host) where
  key : Key
  plan : Plan H
  factory : Factory H

/-- A store together with all factories compiled so far and everything that they have produced. -/
structure Ledger (H : Host) where
  store : Store H
  issued : List (Issue H)
  produced : List (Key × Instance H)

namespace Ledger

/-- One step of a container: anything that is not a call, a compilation, or a call of a factory. -/
inductive Step (c : Container H) : Ledger H → Ledger H → Prop
  | chatter {l : Ledger H} {t : Store H} (hchatter : l.store.Chatter t) :
      Step c l { l with store := t }
  | issue {l : Ledger H} {key : Key} {plan : Plan H} {factory : Factory H} {t : Store H}
      (hplan : (c.registry.plan c.options key).result = .ok plan)
      (hcompile : Factory.compile plan l.store = .ok factory t) :
      Step c l { l with store := t, issued := l.issued ++ [⟨key, plan, factory⟩] }
  | produce {l : Ledger H} {issue : Issue H} {object : Instance H} {t : Store H}
      (hissue : issue ∈ l.issued) (hproduce : issue.factory.produce l.store = .ok object t) :
      Step c l { l with store := t, produced := l.produced ++ [(issue.key, object)] }
  | fail {l : Ledger H} {issue : Issue H} {e : Failure} {t : Store H}
      (hissue : issue ∈ l.issued) (hproduce : issue.factory.produce l.store = .error e t) :
      Step c l { l with store := t }

abbrev Steps (c : Container H) : Ledger H → Ledger H → Prop :=
  Relation.ReflTransGen (Step c)

def Issued (l : Ledger H) (key : Key) (factory : Factory H) : Prop :=
  ∃ issue ∈ l.issued, (issue.key == key) = true ∧ issue.factory = factory

/-- The ledger keeps account of a container's state: it knows every cached factory. -/
structure Tracks (l : Ledger H) (s : ContainerState H) : Prop where
  store : l.store = s.store
  cached : ∀ (key : Key) (factory : Factory H), s.cache.get? key = some factory →
    l.Issued key factory

def Produced (l : Ledger H) (key : Key) (object : Instance H) : Prop :=
  ∃ other, (other == key) = true ∧ (other, object) ∈ l.produced

/-- The instances were produced for these keys in this order, each by a call of its own. -/
def Covers (l : Ledger H) (resolved : List (Key × Instance H)) : Prop :=
  List.SublistForall₂ (fun result entry => (entry.1 == result.1) = true ∧ entry.2 = result.2)
    resolved l.produced

structure Extends (l m : Ledger H) : Prop where
  issued : ∀ issue ∈ l.issued, issue ∈ m.issued
  produced : l.produced.Sublist m.produced

variable {c : Container H} {l m : Ledger H}

theorem Extends.refl (l : Ledger H) : l.Extends l := ⟨fun _ h => h, .refl _⟩

theorem Steps.extends (h : Steps c l m) : l.Extends m := by
  induction h with
  | refl => exact .refl l
  | tail _ hstep ih =>
      cases hstep with
      | chatter => exact ⟨ih.issued, ih.produced⟩
      | issue => exact ⟨fun issue h => List.mem_append_left _ (ih.issued issue h), ih.produced⟩
      | produce => exact ⟨ih.issued, ih.produced.trans (List.sublist_append_left _ _)⟩
      | fail => exact ⟨ih.issued, ih.produced⟩

theorem Issued.extend {key : Key} {factory : Factory H} (h : l.Issued key factory)
    (hextends : l.Extends m) : m.Issued key factory := by
  obtain ⟨issue, hissue, hkey, hfactory⟩ := h
  exact ⟨issue, hextends.issued issue hissue, hkey, hfactory⟩

theorem Covers.extend {resolved : List (Key × Instance H)} (h : l.Covers resolved)
    (hextends : l.Extends m) : m.Covers resolved := by
  obtain ⟨entries, hentries, hsublist⟩ := List.sublistForall₂_iff.mp h
  exact List.sublistForall₂_iff.mpr ⟨entries, hentries, hsublist.trans hextends.produced⟩

theorem Covers.append {resolved : List (Key × Instance H)} (h : l.Covers resolved)
    {key other : Key} (hkey : (other == key) = true) (object : Instance H)
    (t : Store H) :
    Covers { l with store := t, produced := l.produced ++ [(other, object)] }
      (resolved ++ [(key, object)]) := by
  obtain ⟨entries, hentries, hsublist⟩ := List.sublistForall₂_iff.mp h
  exact List.sublistForall₂_iff.mpr ⟨entries ++ [(other, object)],
    List.rel_append hentries (.cons ⟨hkey, rfl⟩ .nil), hsublist.append (.refl _)⟩

theorem Covers.produced {resolved : List (Key × Instance H)} (h : l.Covers resolved) {key : Key}
    {object : Instance H} (hmem : (key, object) ∈ resolved) : l.Produced key object := by
  obtain ⟨entries, hentries, hsublist⟩ := List.sublistForall₂_iff.mp h
  obtain ⟨entry, hentry, hkey, hobject⟩ := exists_of_forall₂_left hentries _ hmem
  subst hobject
  exact ⟨entry.1, hkey, hsublist.subset hentry⟩

end Ledger

namespace Store

theorem chatter_log (s : Store H) (record : LogRecord) : s.Chatter (s.log record) :=
  s.chatter_enter rfl

theorem chatter_foldl_log (s : Store H) (log : Array LogRecord) :
    s.Chatter (log.foldl Store.log s) := by
  rw [← Array.foldl_toList]
  exact List.foldlRecOn (motive := s.Chatter) _ _ (.refl s)
    fun t ht record _ => ht.trans (t.chatter_log record)

theorem chatter_tell (s : Store H) (position : Nat) (observer : Observer H) (notice : Notice) :
    s.Chatter (s.tell position observer notice) := by
  have hnotice : s.Chatter (s.enter (.notice position notice)) := s.chatter_enter rfl
  exact List.foldlRecOn (motive := s.Chatter) _ _ (hnotice.trans (chatter_world _ _))
    fun t ht _ _ => ht.trans (t.chatter_enter rfl)

theorem chatter_announce (s : Store H) (observers : List (Observer H)) (notice : Notice) :
    s.Chatter (s.announce observers notice) :=
  List.foldlRecOn (motive := s.Chatter) _ _ (.refl s)
    fun t ht pair _ => ht.trans (t.chatter_tell pair.2 pair.1 notice)

end Store

/-- The operation is accounted for by ledger steps, whether or not it fails, and `Q` relates what it
returns to the ledger. -/
def Run.Accounted {α : Type} (c : Container H) (P : Ledger H → Prop) (m : Run H α)
    (Q : α → Ledger H → Prop) : Prop :=
  ∀ (s : ContainerState H) (l : Ledger H), l.Tracks s → P l →
    Action.Ends (fun a t => ∃ m, Ledger.Steps c l m ∧ m.Tracks t ∧ Q a m)
      (fun _ t => ∃ m, Ledger.Steps c l m ∧ m.Tracks t) (m s)

namespace Run.Accounted

variable {α β : Type} {c : Container H} {P : Ledger H → Prop} {m : Run H α}
  {Q : α → Ledger H → Prop}

theorem pure (a : α) : Accounted c P (pure a) (fun b l => b = a ∧ P l) :=
  fun _ l hs hP => ⟨l, .refl, hs, rfl, hP⟩

theorem readOnly {a : α} (hm : ∀ s, m s = .ok a s ∨ ∃ e, m s = .error e s) :
    Accounted c P m (fun b l => b = a ∧ P l) := by
  intro s l hs hP
  rcases hm s with hok | ⟨e, herror⟩
  · rw [hok]
    exact ⟨l, .refl, hs, rfl, hP⟩
  · rw [herror]
    exact ⟨l, .refl, hs⟩

theorem bind {f : α → Run H β} {R : β → Ledger H → Prop} (hm : Accounted c P m Q)
    (hf : ∀ a, Accounted c (Q a) (f a) R) : Accounted c P (m >>= f) R := by
  intro s l hs hP
  apply ((hm s l hs hP).mono (fun _ _ h => h) (fun _ _ h => h)).bind
  rintro a t ⟨mid, hmid, ht, hQ⟩
  refine (hf a t mid ht hQ).mono ?_ ?_
  · rintro b u ⟨last, hlast, hu, hR⟩
    exact ⟨last, hmid.trans hlast, hu, hR⟩
  · rintro e u ⟨last, hlast, hu⟩
    exact ⟨last, hmid.trans hlast, hu⟩

theorem ofState {f : ContainerState H → Run H α} (hf : ∀ s, Accounted c P (f s) Q) :
    Accounted c P (get >>= f) Q :=
  fun s l hs hP => hf s s l hs hP

theorem weaken {P' : Ledger H → Prop} {Q' : α → Ledger H → Prop} (hm : Accounted c P m Q)
    (hP : ∀ l, P' l → P l) (hQ : ∀ a l, Q a l → Q' a l) : Accounted c P' m Q' := by
  intro s l hs hl
  refine (hm s l hs (hP l hl)).mono ?_ (fun _ _ h => h)
  rintro a t ⟨mid, hmid, ht, hmidQ⟩
  exact ⟨mid, hmid, ht, hQ a mid hmidQ⟩

theorem frame {R : Ledger H → Prop} (hm : Accounted c P m Q)
    (hR : ∀ l n : Ledger H, l.Extends n → R l → R n) :
    Accounted c (fun l => P l ∧ R l) m (fun a l => Q a l ∧ R l) := by
  rintro s l hs ⟨hP, hl⟩
  refine (hm s l hs hP).mono ?_ (fun _ _ h => h)
  rintro a t ⟨mid, hmid, ht, hQ⟩
  exact ⟨mid, hmid, ht, hQ, hR l mid hmid.extends hl⟩

theorem mapM {f : α → Run H β} {R : List (α × β) → Ledger H → Prop} {elements : List α}
    {done : List (α × β)}
    (hf : ∀ a ∈ elements, ∀ done, Accounted c (R done) (f a) fun b => R (done ++ [(a, b)])) :
    Accounted c (R done) (elements.mapM f) (fun results => R (done ++ elements.zip results)) := by
  induction elements generalizing done with
  | nil =>
      apply (pure []).weaken (fun _ h => h)
      rintro results l ⟨rfl, h⟩
      simpa using h
  | cons a rest ih =>
      rw [List.mapM_cons]
      refine (hf a (by simp) done).bind fun b => ?_
      refine (ih fun other hother => hf other (by simp [hother])).bind fun others => ?_
      apply (pure (b :: others)).weaken (fun _ h => h)
      rintro results l ⟨rfl, h⟩
      simpa using h

theorem forM {f : α → Run H PUnit} {elements : List α}
    (hf : ∀ a ∈ elements, Accounted c (fun _ => True) (f a) (fun _ _ => True)) :
    Accounted c (fun _ => True) (elements.forM f) (fun _ _ => True) := by
  induction elements with
  | nil => exact (pure PUnit.unit).weaken (fun _ _ => trivial) (fun _ _ _ => trivial)
  | cons a rest ih =>
      rw [List.forM_eq_forM, List.forM_cons]
      exact (hf a (by simp)).bind fun _ => ih fun other hother => hf other (by simp [hother])

end Run.Accounted

namespace Ledger.Tracks

variable {c : Container H} {l : Ledger H} {s : ContainerState H} {t : Store H}

theorem chatter (hs : l.Tracks s) (h : s.store.Chatter t) :
    Step c l { l with store := t } ∧ Tracks { l with store := t } { s with store := t } :=
  ⟨.chatter (hs.store ▸ h), rfl, hs.cached⟩

end Ledger.Tracks

end Wiring
