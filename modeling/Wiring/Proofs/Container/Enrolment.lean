import Wiring.Container.Builder
import Wiring.Proofs.Registry.Catalogue
import Wiring.Proofs.Registry.Dependency
import Wiring.Proofs.Registry.Numbering
import Wiring.Proofs.Registry.Reordering

namespace Wiring

variable {H : Host}

/-- An attempt to register something, under a service name or none. -/
inductive Enrolment (H : Host) where
  | declared (i : Implementation H) (lifetime : Lifetime) (name : Option String)
  | listed (i : Implementation H) (lifetime : Lifetime) (name : Option String)
  | presented (interface : TypeTag) (convert : Conversion H) (i : Implementation H)
      (lifetime : Lifetime) (name : Option String)
  | given (type : TypeTag) (payload : H.Payload) (name : Option String)
  | givenHandle (interface : TypeTag) (payload : H.Payload) (name : Option String)

namespace Enrolment

def perform : Enrolment H → Building H Unit
  | .declared i lifetime name => Builder.add i lifetime name
  | .listed i lifetime name => Builder.addListed i lifetime name
  | .presented interface convert i lifetime name =>
    Builder.addInterface interface convert i lifetime name
  | .given type payload name => Builder.addInstance type payload name
  | .givenHandle interface payload name => Builder.addInterfaceInstance interface payload name

/-- Goes on after a refusal. -/
def attempt (e : Enrolment H) : StateM (Builder H) (Except Failure Unit) := fun b =>
  match e.perform b with
  | .ok _ b => (.ok (), b)
  | .error failure b => (.error failure, b)

def key : Enrolment H → Key
  | .declared i _ name => .ofType i.type name
  | .listed i _ name => .ofType i.type name
  | .presented interface _ _ _ name => .ofInterface interface name
  | .given type _ name => .ofType type name
  | .givenHandle interface _ name => .ofInterface interface name

/-- What is stored if this many registrations have been accepted before. -/
def provision (accepted : Nat) : Enrolment H → Provision H
  | .declared i lifetime _ => .construct i lifetime none
  | .listed i lifetime _ => .construct i lifetime none
  | .presented interface convert i lifetime _ =>
    .construct i lifetime (some ⟨interface, i.type, convert⟩)
  | .given type payload _ => .given ⟨type, payload, .given accepted⟩
  | .givenHandle interface payload _ => .given ⟨interface.handle, payload, .given accepted⟩

def registration (e : Enrolment H) (accepted : Nat) : Registration H :=
  ⟨e.key, e.provision accepted, accepted⟩

/-- What is wrong with the attempt itself: constructors that are listed by hand have to build the type
that they are listed for. -/
def complaint? : Enrolment H → Option Failure
  | .listed i _ _ =>
    if i.constructors.all (·.implementation.id == i.type.id) then none
    else some (.typeMismatch i.type.name)
  | _ => none

theorem perform_eq (e : Enrolment H) (b : Builder H) :
    e.perform b =
      match e.complaint? with
      | some failure => .error failure b
      | none => Builder.register e.key (e.provision b.registry.nextSequence) b := by
  cases e with
  | listed i lifetime name =>
      simp only [perform, complaint?]
      unfold Builder.addListed Builder.checkConstructors
      split <;> rfl
  | _ => rfl

theorem registration_renumber (e : Enrolment H) {number : Nat → Nat} {n m : Nat}
    (hnumber : number n = m) : (e.registration n).renumber number = e.registration m := by
  subst hnumber
  cases e <;> rfl

end Enrolment

/-- The list after an attempt, and what comes of it. A strict list refuses a key that it has. -/
def Catalogue.attempt (mode : RegistrationMode) (e : Enrolment H) :
    StateM (Catalogue H) (Except Failure Unit) := fun c =>
  match e.complaint? with
  | some failure => (.error failure, c)
  | none =>
    if mode = .strict ∧ c.entries.any (·.key == e.key) then
      (.error (.alreadyRegistered e.key.displayName), c)
    else (.ok (), c.accept e.key (e.provision c.accepted))

/-- A builder whose registry may hold this many registrations in its list half. -/
def Builder.withCapacity (options : Options) (capacity : Nat) : Builder H :=
  { Builder.withOptions options with registry := .withCapacity capacity }

namespace Enrolment

variable {b : Builder H} {c : Catalogue H}

theorem attempt_shows (hb : b.registry.Shows c) (e : Enrolment H) :
    (e.attempt b).1 = (c.attempt b.options.registrationMode e).1 ∧
      (e.attempt b).2.registry.Shows (c.attempt b.options.registrationMode e).2 ∧
      (e.attempt b).2.options = b.options := by
  unfold attempt Catalogue.attempt
  rw [e.perform_eq]
  cases e.complaint? with
  | some failure => exact ⟨rfl, hb, rfl⟩
  | none =>
      simp only [Builder.register, Registry.insert, hb.agrees.contains]
      by_cases hrefused : b.options.registrationMode = .strict ∧ c.entries.any (·.key == e.key)
      · simp only [if_pos hrefused, true_and, and_true]
        exact hb
      · simp only [if_neg hrefused, hb.nextSequence, true_and, and_true]
        exact hb.store e.key _

theorem attemptAll_shows (hb : b.registry.Shows c) (es : List (Enrolment H)) :
    (es.mapM attempt b).1 = (es.mapM (Catalogue.attempt b.options.registrationMode) c).1 ∧
      (es.mapM attempt b).2.registry.Shows
        (es.mapM (Catalogue.attempt b.options.registrationMode) c).2 := by
  induction es generalizing b c with
  | nil => exact ⟨rfl, hb⟩
  | cons e rest ih =>
      rw [List.mapM_cons, List.mapM_cons]
      obtain ⟨hanswer, hshows, hoptions⟩ := attempt_shows hb e
      obtain ⟨hrest, hlast⟩ := ih hshows
      rw [hoptions] at hrest hlast
      exact ⟨congrArg₂ List.cons hanswer hrest, hlast⟩

theorem registry_of_refused {e : Enrolment H} {failure : Failure}
    (hrefused : (e.attempt b).1 = .error failure) : (e.attempt b).2.registry = b.registry := by
  unfold attempt at hrefused ⊢
  rw [e.perform_eq] at hrefused ⊢
  cases hcomplaint : e.complaint? with
  | some failure => rfl
  | none =>
      rw [hcomplaint] at hrefused
      simp only [Builder.register] at hrefused ⊢
      cases hinsert : b.registry.insert b.options.registrationMode e.key
          (e.provision b.registry.nextSequence) with
      | ok registry =>
          rw [hinsert] at hrefused
          cases hrefused
      | error e => rfl

/-- What stands under a key after one more attempt, if `current` stood there before: in strict mode
the first attempt with which nothing is wrong, otherwise the last one. -/
def settle (mode : RegistrationMode) (current : Option (Enrolment H)) (e : Enrolment H) :
    Option (Enrolment H) :=
  if e.complaint?.isSome ∨ mode = .strict ∧ current.isSome then current else some e

def Stored (r : Registration H) (e : Enrolment H) : Prop :=
  ∃ accepted, r = e.registration accepted

variable {mode : RegistrationMode} {k : Key} {current : Option (Enrolment H)}

theorem find?_attempt (hcurrent : Option.Rel Stored (c.find? k) current) (e : Enrolment H) :
    Option.Rel Stored ((Catalogue.attempt mode e c).2.find? k)
      (if e.key == k then settle mode current e else current) := by
  have hany : (e.key == k) = true → c.entries.any (·.key == e.key) = current.isSome := by
    intro hkey
    have hfound : c.entries.any (·.key == e.key) = (c.find? k).isSome := by
      rw [Catalogue.find?, Bool.eq_iff_iff, List.find?_isSome, List.any_eq_true]
      simp only [Key.beq_congr_right hkey]
    rw [hfound]
    generalize c.find? k = found at hcurrent
    cases hcurrent <;> rfl
  unfold Catalogue.attempt settle
  cases e.complaint? with
  | some failure => simpa using hcurrent
  | none =>
      by_cases hkey : (e.key == k) = true
      · rw [hany hkey]
        by_cases hrefused : mode = .strict ∧ current.isSome
        · simpa [hkey, hrefused] using hcurrent
        · simp only [if_neg hrefused, Catalogue.find?_accept, hkey, Option.isSome_none,
            Bool.false_eq_true, false_or, if_true]
          exact .some ⟨_, rfl⟩
      · simp only [hkey, Bool.false_eq_true, if_false]
        split
        · exact hcurrent
        · rw [Catalogue.find?_accept, if_neg hkey]
          exact hcurrent

theorem find?_attemptAll (hcurrent : Option.Rel Stored (c.find? k) current)
    (es : List (Enrolment H)) :
    Option.Rel Stored ((es.mapM (Catalogue.attempt mode) c).2.find? k)
      ((es.filter (·.key == k)).foldl (settle mode) current) := by
  induction es generalizing c current with
  | nil => exact hcurrent
  | cons e rest ih =>
      rw [List.mapM_cons]
      have hstep : Option.Rel Stored ((Catalogue.attempt mode e c).2.find? k) _ :=
        find?_attempt hcurrent e
      rw [List.filter_cons]
      by_cases hkey : (e.key == k) = true
      · rw [if_pos hkey] at hstep ⊢
        exact ih hstep
      · rw [if_neg hkey] at hstep ⊢
        exact ih hstep

/-- Where the registration with this number is found in the other list. -/
def moved (c d : Catalogue H) (n : Nat) : Nat :=
  match (c.entries.find? (·.sequence == n)).bind fun r => d.find? r.key with
  | some r => r.sequence
  | none => n

theorem renumbered_of_stored {registry other : Registry H} {c d : Catalogue H}
    (hregistry : registry.Shows c) (hother : other.Shows d) {stored : Key → Option (Enrolment H)}
    (hc : ∀ key, Option.Rel Stored (c.find? key) (stored key))
    (hd : ∀ key, Option.Rel Stored (d.find? key) (stored key)) :
    registry.Renumbered (moved c d) other := by
  intro key
  have hsame := hc key
  have hcounterpart := hd key
  rw [hregistry.find?_eq, hother.find?_eq]
  cases hstored : stored key with
  | none =>
      rw [hstored] at hsame hcounterpart
      generalize c.find? key = found, d.find? key = counterpart at hsame hcounterpart
      cases hsame
      cases hcounterpart
      rfl
  | some e =>
      rw [hstored] at hsame hcounterpart
      obtain ⟨_, hfound, n, rfl⟩ := exists_of_rel_some hsame
      obtain ⟨_, hmoved, m, rfl⟩ := exists_of_rel_some hcounterpart
      obtain ⟨hmem, hkey⟩ := (Catalogue.find?_eq_some_iff hregistry.apart).mp hfound
      have hentry : c.entries.find? (·.sequence == n) = some (e.registration n) := by
        have hsome : (c.entries.find? (·.sequence == n)).isSome :=
          List.find?_isSome.mpr ⟨e.registration n, hmem, by simp [registration]⟩
        obtain ⟨r, hr⟩ := Option.isSome_iff_exists.mp hsome
        have hsequence : r.sequence = n := by simpa using List.find?_some hr
        rw [hr, hregistry.assembled.coherent.sequence_inj r
          (hregistry.mem_entries.mp (List.mem_of_find?_eq_some hr)) (e.registration n)
          (hregistry.mem_entries.mp hmem) hsequence]
      have hnumber : moved c d n = m := by
        unfold moved
        rw [hentry, Option.bind_some, ← hother.find?_eq, other.find?_congr hkey, hother.find?_eq,
          hmoved]
        rfl
      rw [hfound, hmoved, Option.map_some, e.registration_renumber hnumber]

theorem filter_eq_of_perm {es others : List (Enrolment H)} (hapart : KeysApart key es)
    (hperm : es.Perm others) (k : Key) :
    es.filter (·.key == k) = others.filter (·.key == k) := by
  have hfilter := hperm.filter (·.key == k)
  have hshort : (es.filter (·.key == k)).Pairwise fun _ _ => False := by
    refine (List.Pairwise.filter _ hapart).imp_of_mem fun {a b} ha hb hne => hne ?_
    exact Key.beq_trans (by simpa using (List.mem_filter.mp ha).2)
      (Key.beq_symm (by simpa using (List.mem_filter.mp hb).2))
  cases hes : es.filter (·.key == k) with
  | nil =>
      rw [hes] at hfilter
      exact hfilter.nil_eq
  | cons e rest =>
      rw [hes] at hshort hfilter
      cases rest with
      | nil => exact (List.perm_singleton.mp hfilter.symm).symm
      | cons other _ => exact ((List.pairwise_cons.mp hshort).1 other (by simp)).elim

end Enrolment

/-- The registry refines one list of registrations. For every mode, every capacity and all attempts to
register, each attempt is answered as the list answers it, and the builder and its container agree
with the list on everything that can be asked; an attempt that is refused leaves the registry as it
is. The order of attempts with different keys is of no consequence: as long as the attempts with equal
keys keep theirs, what is found under a key, and every plan, stays the same up to the numbers of the
registrations. -/
theorem Builder.registrations_refine_catalogue (options : Options) (capacity : Nat)
    (enrolments : List (Enrolment H)) :
    let attempted := enrolments.mapM Enrolment.attempt (.withCapacity options capacity)
    let expected := enrolments.mapM (Catalogue.attempt options.registrationMode) .empty
    attempted.1 = expected.1 ∧
    KeysApart Registration.key expected.2.entries ∧
    attempted.2.registry.Agrees expected.2 ∧
    attempted.2.container.registry.Agrees expected.2 ∧
    (∀ (e : Enrolment H) (failure : Failure), (e.attempt attempted.2).1 = .error failure →
      (e.attempt attempted.2).2.registry = attempted.2.registry) ∧
    ∀ (others : List (Enrolment H)) (otherCapacity : Nat),
      (∀ key, enrolments.filter (·.key == key) = others.filter (·.key == key)) →
      let registry := attempted.2.container.registry
      let other := (others.mapM Enrolment.attempt (.withCapacity options otherCapacity)).2
        |>.container.registry
      ∃ number : Nat → Nat,
        (∀ a ∈ registry.toList, ∀ b ∈ registry.toList,
          number a.sequence = number b.sequence → a = b) ∧
        registry.Renumbered number other ∧
        ∀ root, other.plan options root = (registry.plan options root).renumber number := by
  have hall : ∀ (es : List (Enrolment H)) (capacity : Nat), _ := fun es capacity =>
    Enrolment.attemptAll_shows (b := .withCapacity options capacity) (.withCapacity capacity) es
  obtain ⟨hanswers, hshows⟩ := hall enrolments capacity
  refine ⟨hanswers, hshows.apart, hshows.agrees, hshows.freeze.agrees,
    fun e failure => Enrolment.registry_of_refused, ?_⟩
  intro others otherCapacity hsame registry other
  have hother := (hall others otherCapacity).2
  have hrenumbered := Enrolment.renumbered_of_stored hshows.freeze hother.freeze
    (fun key => Enrolment.find?_attemptAll .none enrolments)
    (fun key => hsame key ▸ Enrolment.find?_attemptAll .none others)
  exact ⟨_, hrenumbered.injOn hshows.freeze.assembled hother.freeze.assembled, hrenumbered,
    Registry.plan_renumbered hrenumbered options⟩

namespace Sample

def enrolments : List (Enrolment host) :=
  [.declared batteries .singleton none, .given fuse 5 none, .declared motors .singleton none,
    .declared lamps .transient none, .presented vehicle convert cars .transient none]

theorem enrolments_reversible :
    (enrolments.mapM (Catalogue.attempt .strict) .empty).1 = List.replicate 5 (.ok ()) ∧
    (∀ key, enrolments.filter (·.key == key) = enrolments.reverse.filter (·.key == key)) ∧
    let options : Options := { registrationMode := .strict }
    let registry := (enrolments.mapM Enrolment.attempt (.withCapacity options 16)).2
      |>.container.registry
    let other := (enrolments.reverse.mapM Enrolment.attempt (.withCapacity options 2)).2
      |>.container.registry
    ∃ number : Nat → Nat, registry.Renumbered number other ∧
      ∀ root, other.plan options root = (registry.plan options root).renumber number := by
  have hapart : KeysApart Enrolment.key enrolments := by
    unfold KeysApart
    decide
  have hsame := Enrolment.filter_eq_of_perm hapart (List.reverse_perm enrolments).symm
  obtain ⟨-, -, -, -, -, horder⟩ :=
    Builder.registrations_refine_catalogue { registrationMode := .strict } 16 enrolments
  obtain ⟨number, -, hnumber⟩ := horder enrolments.reverse 2 hsame
  exact ⟨rfl, hsame, number, hnumber⟩

end Sample

end Wiring
