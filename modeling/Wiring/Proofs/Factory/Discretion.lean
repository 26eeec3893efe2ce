import Wiring.Container.Observer
import Wiring.Proofs.Factory.Conduct

namespace Wiring

variable {H : Host}

theorem Journal.heard_ofLog (log : Array LogRecord) : (ofLog log : Journal H).heard = [] := by
  unfold heard ofLog
  rw [Array.toList_map, List.filterMap_map]
  exact List.filterMap_eq_nil_iff.mpr fun _ _ => rfl

namespace Store

def Unheard (s t : Store H) : Prop :=
  t.journal.heard = s.journal.heard

instance : Std.Refl (Unheard (H := H)) := ⟨fun _ => rfl⟩

instance : IsTrans (Store H) Unheard := ⟨fun _ _ _ hst htu => htu.trans hst⟩

theorem heard_enter (s : Store H) (entry : Entry H) :
    (s.enter entry).journal.heard = s.journal.heard ++ entry.notice?.toList := by
  unfold Journal.heard
  rw [enter, Array.toList_push, List.filterMap_append]
  cases h : entry.notice? <;> simp [h]

theorem unheard_enter (s : Store H) {entry : Entry H} (h : entry.notice? = none) :
    s.Unheard (s.enter entry) := by
  simp [Unheard, heard_enter, h]

theorem unheard_remarks (s : Store H) (remarks : List (Remark H)) :
    s.Unheard (remarks.foldl (fun s remark => s.enter (.remark remark)) s) :=
  List.foldlRecOn (motive := s.Unheard) _ _ (refl_of Unheard s)
    fun t ht _ _ => trans_of Unheard ht (t.unheard_enter rfl)

theorem unheard_log (s : Store H) (record : LogRecord) : s.Unheard (s.log record) :=
  s.unheard_enter rfl

theorem unheard_absorb {α : Type} (s : Store H) (reply : Reply H α) :
    s.Unheard (s.absorb reply) := by
  have hjournal : (s.absorb reply).journal.toList =
      s.journal.toList ++ reply.events.map fun event => .remark (.event event) := by
    simp [absorb]
  unfold Unheard Journal.heard
  rw [hjournal, List.filterMap_append]
  simp [Entry.notice?]

theorem heard_tell (s : Store H) (position : Nat) (observer : Observer H) (notice : Notice) :
    (s.tell position observer notice).journal.heard = s.journal.heard ++ [(position, notice)] :=
  (unheard_remarks _ _).trans (s.heard_enter _)

theorem heard_announce (s : Store H) (observers : List (Observer H)) (notice : Notice) :
    (s.announce observers notice).journal.heard =
      s.journal.heard ++ (List.range observers.length).map (·, notice) := by
  have htold : ∀ (pairs : List (Observer H × Nat)) (s : Store H),
      (pairs.foldl (fun s pair => s.tell pair.2 pair.1 notice) s).journal.heard =
        s.journal.heard ++ (pairs.map Prod.snd).map (·, notice) := by
    intro pairs
    induction pairs with
    | nil => simp
    | cons pair rest ih =>
        intro s
        rw [List.foldl_cons, ih, heard_tell]
        simp
  refine (htold observers.zipIdx s).trans ?_
  rw [List.zipIdx_map_snd, List.range_eq_range']

theorem unheard_foldl_log (s : Store H) (log : Array LogRecord) :
    s.Unheard (log.foldl Store.log s) := by
  rw [← Array.foldl_toList]
  exact List.foldlRecOn (motive := s.Unheard) _ _ (refl_of Unheard s)
    fun t ht record _ => trans_of Unheard ht (t.unheard_log record)

end Store

/-- Whatever comes of the evaluation, no observer is told anything. -/
abbrev Discreet {α : Type} (m : Eval H α) : Prop :=
  Action.Leads Store.Unheard m

namespace Discreet

theorem invoke (c : Constructor H) (args : List (Option (Instance H))) :
    Discreet (c.invoke args) := by
  intro s
  unfold Constructor.invoke
  cases c.recipe with
  | handOut object => exact s.unheard_enter rfl
  | assemble code =>
      have habsorb := s.unheard_absorb (code (.ofValues c.label args) s.world)
      dsimp only
      cases (code (.ofValues c.label args) s.world).result with
      | ok payload => exact trans_of Store.Unheard habsorb (Store.unheard_enter _ rfl)
      | error e => exact trans_of Store.Unheard habsorb (Store.unheard_enter _ rfl)

theorem apply (a : Adapter H) (object : Instance H) : Discreet (a.apply object) := by
  intro s
  unfold Adapter.apply
  cases object.expect a.source with
  | error e => exact s.unheard_enter rfl
  | ok found =>
      have habsorb := s.unheard_absorb (a.convert found.payload s.world)
      dsimp only
      cases (a.convert found.payload s.world).result with
      | ok payload => exact trans_of Store.Unheard habsorb (Store.unheard_enter _ rfl)
      | error e => exact trans_of Store.Unheard habsorb (Store.unheard_enter _ rfl)

theorem substitute (p : Parameter H) : Discreet p.substitute := by
  intro s
  cases p with
  | service type name => exact refl_of Store.Unheard s
  | interface interface name => exact refl_of Store.Unheard s
  | value type standard =>
      exact trans_of Store.Unheard (s.unheard_absorb (standard s.world))
        (Store.unheard_enter _ rfl)

theorem conduct : Conduct (H := H) Discreet where
  pure a := .pure a
  throw e := .throw e
  bind hm hf := hm.bind hf
  look hf _ := .ofState hf
  fill _ _ _ := rfl
  invoke := invoke
  apply := apply
  substitute := substitute

theorem produce {f : Factory H} (hf : f.Emitted) : Discreet f.produce :=
  conduct.produce hf fun _ _ => rfl

theorem compile (p : Plan H) : Discreet (Factory.compile p) := by
  intro s
  cases hprogram : p.program with
  | error e =>
      unfold Factory.compile
      rw [hprogram]
      exact refl_of Store.Unheard s
  | ok program =>
      rw [Factory.compile_eq hprogram]
      exact Store.unheard_log _ _

end Discreet

end Wiring
