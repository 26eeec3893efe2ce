import Wiring.Proofs.Container.Admission

/-!
One service among others. Registrations of different services share a registry, its numbers and
nothing else: seen from one service, a sequence of registration calls is as good as the calls for
this service alone. What tells services apart is the identity of concrete types and the name of
interfaces.
-/

namespace Wiring

variable {H : Host}

/-- What can be asked for: a concrete type, or a type that is used as an interface. -/
inductive ServiceType where
  | concrete (type : TypeTag)
  | interface (type : TypeTag)
deriving DecidableEq

namespace ServiceType

def key : ServiceType → Option String → Key
  | .concrete type, name => .ofType type name
  | .interface type, name => .ofInterface type name

def delivers : ServiceType → TypeTag
  | .concrete type => type
  | .interface type => type.handle

/-- Different concrete types, interfaces with different names, or one of each kind. -/
def ToldApart : ServiceType → ServiceType → Prop
  | .concrete s, .concrete t => s.id ≠ t.id
  | .interface s, .interface t => s.name ≠ t.name
  | _, _ => True

theorem key_service_beq_iff {S T : ServiceType} {name other : Option String} :
    ((T.key name).service == (S.key other).service) = true ↔ ¬ S.ToldApart T := by
  cases S <;> cases T <;>
    simp [ToldApart, key, Key.ofType, Key.ofInterface, BEq.beq, Service.beq, eq_comm]

theorem key_beq_iff {S T : ServiceType} {name other : Option String} :
    (T.key name == S.key other) = true ↔ ¬ S.ToldApart T ∧ name = other := by
  have hname (S : ServiceType) (name : Option String) : (S.key name).name = name := by
    cases S <;> rfl
  rw [Key.beq_iff, key_service_beq_iff, hname, hname]

theorem key_sameService_iff {S T : ServiceType} {name other : Option String} :
    (T.key name).sameService (S.key other) = true ↔ ¬ S.ToldApart T := by
  rw [Key.sameService_iff, key_service_beq_iff]

theorem not_toldApart_self (S : ServiceType) : ¬ S.ToldApart S := by
  cases S <;> simp [ToldApart]

end ServiceType

namespace Enrolment

variable {e : Enrolment H} {S T : ServiceType}

def serviceType : Enrolment H → ServiceType
  | .declared i _ _ => .concrete i.type
  | .listed i _ _ => .concrete i.type
  | .presented interface _ _ _ _ => .interface interface
  | .given type _ _ => .concrete type
  | .givenHandle interface _ _ => .interface interface

def name : Enrolment H → Option String
  | .declared _ _ name => name
  | .listed _ _ name => name
  | .presented _ _ _ _ name => name
  | .given _ _ name => name
  | .givenHandle _ _ name => name

theorem key_eq (e : Enrolment H) : e.key = e.serviceType.key e.name := by
  cases e <;> rfl

/-- Whether the call is for this service, as far as keys can tell. -/
def concerns (S : ServiceType) (e : Enrolment H) : Bool :=
  e.key.sameService (S.key none)

theorem concerns_iff : e.concerns S = true ↔ ¬ S.ToldApart e.serviceType := by
  rw [concerns, key_eq, ServiceType.key_sameService_iff]

theorem concerns_of_serviceType (h : e.serviceType = S) : e.concerns S = true :=
  concerns_iff.mpr (h ▸ S.not_toldApart_self)

end Enrolment

namespace Registration

def unnumbered (r : Registration H) : Registration H :=
  r.renumber fun _ => 0

end Registration

namespace Catalogue

variable {mode : RegistrationMode} {S T : ServiceType} {e f : Enrolment H} {c d : Catalogue H}

def view (c : Catalogue H) (S : ServiceType) : List (Registration H) :=
  c.entries.filter (·.key.sameService (S.key none))

/-- Both catalogues have the same entries for the service, but for the numbers. -/
def Alike (S : ServiceType) (c d : Catalogue H) : Prop :=
  (c.view S).map Registration.unnumbered = (d.view S).map Registration.unnumbered

theorem attempt_cases (mode : RegistrationMode) (e : Enrolment H) (c : Catalogue H) :
    (∃ failure, attempt mode e c = (.error failure, c)) ∨
      attempt mode e c = (.ok (), c.accept e.key (e.provision c.accepted)) := by
  unfold attempt
  cases e.complaint? with
  | some failure => exact Or.inl ⟨failure, rfl⟩
  | none =>
      dsimp only
      split
      · exact Or.inl ⟨_, rfl⟩
      · exact Or.inr rfl

theorem attemptAll_cons (mode : RegistrationMode) (e : Enrolment H) (rest : List (Enrolment H))
    (c : Catalogue H) :
    (e :: rest).mapM (attempt mode) c =
      ((attempt mode e c).1 :: (rest.mapM (attempt mode) (attempt mode e c).2).1,
        (rest.mapM (attempt mode) (attempt mode e c).2).2) := by
  rw [List.mapM_cons]
  rfl

/-- Calls for other services leave the entries for a service as they are. -/
theorem view_attempt (mode : RegistrationMode) (he : e.concerns S = false) (c : Catalogue H) :
    (attempt mode e c).2.view S = c.view S := by
  rcases attempt_cases mode e c with ⟨failure, hrefused⟩ | haccepted
  · rw [hrefused]
  · rw [haccepted]
    have hold : ∀ r : Registration H, r.key.sameService (S.key none) = true →
        (!(r.key == e.key)) = true := by
      intro r hr
      rw [Bool.not_eq_true']
      refine Bool.eq_false_iff.mpr fun hkey => ?_
      rw [Key.sameService_of_beq hkey, ← Enrolment.concerns, he] at hr
      cases hr
    have hnew : e.key.sameService (S.key none) = false := he
    simp only [view, accept, List.filter_append, List.filter_filter, List.filter_cons,
      List.filter_nil, hnew, Bool.false_eq_true, if_false, List.append_nil]
    refine List.filter_congr fun r _ => ?_
    cases hr : r.key.sameService (S.key none) with
    | false => rfl
    | true => exact hold r hr

theorem find?_eq_view (c : Catalogue H) (S : ServiceType) (name : Option String) :
    c.find? (S.key name) = (c.view S).find? (·.key == S.key name) := by
  rw [find?, view, List.find?_filter]
  congr 1
  funext r
  by_cases hkey : (r.key == S.key name) = true
  · have hself : (S.key name).sameService (S.key none) = true :=
      ServiceType.key_sameService_iff.mpr S.not_toldApart_self
    simp [hkey, Key.sameService_of_beq hkey, hself]
  · simp [hkey]

namespace Alike

theorem any_key (h : Alike S c d) (he : e.concerns S = true) :
    c.entries.any (·.key == e.key) = d.entries.any (·.key == e.key) := by
  have hview (c : Catalogue H) : c.entries.any (·.key == e.key) =
      ((c.view S).map Registration.unnumbered).any (·.key == e.key) := by
    rw [view, List.any_map, List.any_filter]
    congr 1
    funext r
    by_cases hkey : (r.key == e.key) = true
    · have hsame : r.key.sameService (S.key none) = true :=
        (Key.sameService_of_beq hkey _).trans he
      simp [hsame, Registration.unnumbered]
    · simp [Registration.unnumbered, hkey]
  rw [hview c, hview d, h]

theorem accept (h : Alike S c d) (he : e.concerns S = true) :
    Alike S (c.accept e.key (e.provision c.accepted))
      (d.accept e.key (e.provision d.accepted)) := by
  have hview (c : Catalogue H) :
      ((c.accept e.key (e.provision c.accepted)).view S).map Registration.unnumbered =
        ((c.view S).map Registration.unnumbered).filter (fun old => !(old.key == e.key)) ++
          [e.registration 0] := by
    have hnew : e.key.sameService (S.key none) = true := he
    have hnumber : (e.registration c.accepted).unnumbered = e.registration 0 :=
      e.registration_renumber rfl
    simp only [view, Catalogue.accept, List.filter_append, List.filter_cons, List.filter_nil, hnew,
      if_true, List.map_append, List.map_cons, List.map_nil, List.filter_map]
    congr 1
    · rw [List.filter_filter, List.filter_filter]
      congr 1
      refine List.filter_congr fun r _ => ?_
      exact Bool.and_comm _ _
    · exact congrArg (fun r => [r]) hnumber
  unfold Alike
  rw [hview c, hview d, h]

theorem attempt (mode : RegistrationMode) (h : Alike S c d) (he : e.concerns S = true) :
    (Catalogue.attempt mode e c).1 = (Catalogue.attempt mode e d).1 ∧
      Alike S (Catalogue.attempt mode e c).2 (Catalogue.attempt mode e d).2 := by
  unfold Catalogue.attempt
  cases e.complaint? with
  | some failure => exact ⟨rfl, h⟩
  | none =>
      dsimp only
      rw [h.any_key he]
      split
      · exact ⟨rfl, h⟩
      · exact ⟨rfl, h.accept he⟩

theorem attemptAll (mode : RegistrationMode) (h : Alike S c d) (es : List (Enrolment H)) :
    (es.zip (es.mapM (Catalogue.attempt mode) c).1).filter (·.1.concerns S) =
        (es.filter (·.concerns S)).zip
          ((es.filter (·.concerns S)).mapM (Catalogue.attempt mode) d).1 ∧
      Alike S (es.mapM (Catalogue.attempt mode) c).2
        ((es.filter (·.concerns S)).mapM (Catalogue.attempt mode) d).2 := by
  induction es generalizing c d with
  | nil => exact ⟨rfl, h⟩
  | cons e rest ih =>
      rw [attemptAll_cons, List.zip_cons_cons]
      cases he : e.concerns S with
      | true =>
          obtain ⟨hanswer, hstep⟩ := h.attempt mode he
          obtain ⟨hanswers, hrest⟩ := ih hstep
          simp only [List.filter_cons, he, if_true, attemptAll_cons, List.zip_cons_cons]
          rw [hanswers, hanswer]
          exact ⟨rfl, hrest⟩
      | false =>
          have hstep : Alike S (Catalogue.attempt mode e c).2 d := by
            rw [Alike, view_attempt mode he]
            exact h
          simp only [List.filter_cons, he, Bool.false_eq_true, if_false]
          exact ih hstep

theorem find? (h : Alike S c d) (name : Option String) :
    (c.find? (S.key name)).map Registration.unnumbered =
      (d.find? (S.key name)).map Registration.unnumbered := by
  have hview (c : Catalogue H) : (c.find? (S.key name)).map Registration.unnumbered =
      ((c.view S).map Registration.unnumbered).find? (·.key == S.key name) := by
    rw [find?_eq_view, List.find?_map]
    rfl
  rw [hview c, hview d, h]

theorem of_filter_eq (mode : RegistrationMode) {es others : List (Enrolment H)}
    (hsame : es.filter (·.concerns S) = others.filter (·.concerns S)) (c : Catalogue H) :
    (es.zip (es.mapM (Catalogue.attempt mode) c).1).filter (·.1.concerns S) =
        (others.zip (others.mapM (Catalogue.attempt mode) c).1).filter (·.1.concerns S) ∧
      Alike S (es.mapM (Catalogue.attempt mode) c).2
        (others.mapM (Catalogue.attempt mode) c).2 := by
  have hself : Alike S c c := rfl
  obtain ⟨hanswers, hlast⟩ := hself.attemptAll mode es
  obtain ⟨hotherAnswers, hotherLast⟩ := hself.attemptAll mode others
  rw [hsame] at hanswers hlast
  exact ⟨hanswers.trans hotherAnswers.symm, Eq.trans hlast (Eq.symm hotherLast)⟩

end Alike

theorem find?_of_kept {r : Registration H} {after : List (Enrolment H)} {key : Key}
    (hfound : c.find? key = some r)
    (hkept : ∀ p ∈ after.zip (after.mapM (attempt mode) c).1, (p.1.key == key) = true →
      p.2 ≠ .ok ()) :
    (after.mapM (attempt mode) c).2.find? key = some r := by
  induction after generalizing c with
  | nil => exact hfound
  | cons e rest ih =>
      rw [attemptAll_cons] at hkept ⊢
      rw [List.zip_cons_cons] at hkept
      obtain ⟨hfirst, hrest⟩ := List.forall_mem_cons.mp hkept
      refine ih ?_ hrest
      rcases attempt_cases mode e c with ⟨failure, hrefused⟩ | haccepted
      · rw [hrefused]
        exact hfound
      · have hother : ¬ (e.key == key) = true := by
          intro hkey
          rw [haccepted] at hfirst
          exact hfirst hkey rfl
        rw [haccepted, find?_accept, if_neg hother]
        exact hfound

end Catalogue

end Wiring
