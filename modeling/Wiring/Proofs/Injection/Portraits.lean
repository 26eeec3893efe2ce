import Wiring.Proofs.Elementwise
import Wiring.Proofs.Injection.Activity
import Wiring.Proofs.Registry.Selection

/-!
Portraits. A reading describes instances by how they came about: what a call makes by what the call
was given, and nothing by the world in which it was made. The registry alone then says how everything
that is delivered for a registration is described, and injection bears it out: whatever happened
before, what is built, what is in a cell and what constructors receive fits the portrait.
-/

namespace Wiring

variable {H : Host} {D : Type}

/-- A way to describe instances by how they came about. -/
structure Reading (H : Host) (D : Type) where
  /-- What is known of an instance once all this has happened. -/
  describe : Journal H → Instance H → Option D
  constructed : Constructor H → List (Option D) → D
  adapted : Adapter H → D → D
  defaulted : Parameter H → D

def Store.Numbered (s : Store H) : Prop :=
  ∀ (call : Call H) (object : Instance H), Entry.call call ∈ s.journal.toList →
    call.made? = some object → ∃ serial, object.origin = .built serial ∧ serial < s.nextSerial

namespace Reading

variable (R : Reading H D) (registry : Registry H) (policy : ConstructorPolicy)

def Shows (journal : Journal H) (object : Instance H) (d : D) : Prop :=
  R.describe journal object = some d

def presented (r : Registration H) (d : D) : D :=
  match r.adapter with
  | some adapter => R.adapted adapter d
  | none => d

def delivery (portray : Registration H → Option D) (parameter : Parameter H) : Option (Option D) :=
  match registry.find? parameter.key with
  | some d => some <$> portray d
  | none =>
    match parameter.kind with
    | .reference => some none
    | .value => some (some (R.defaulted parameter))

/-- What the registry says of the instances of a registration whose chains of dependencies have at
most `depth` members. -/
def portrait : Nat → Registration H → Option D
  | 0, _ => none
  | depth + 1, r => do
    let chosen ← policy.choose? r.constructors
    let pictures ← chosen.parameters.mapM (R.delivery registry (portrait depth))
    return R.presented r (R.constructed chosen pictures)

/-- The reading is borne out by calls: it keeps what it has said, knows what constructors hand out,
and describes what a call makes by what the call was given. -/
structure Truthful : Prop where
  keeps {journal later : Journal H} {object : Instance H} {d : D}
    (hextends : journal.toList <+: later.toList) (hshows : R.Shows journal object d) :
    R.Shows later object d
  handedOut {r : Registration H} {c : Constructor H} {object : Instance H}
    (hmem : r ∈ registry.toList) (hc : c ∈ r.constructors) (hrecipe : c.recipe = .handOut object)
    (journal : Journal H) (pictures : List (Option D)) :
    R.Shows journal object (R.constructed c pictures)
  assembled {s t : Store H} {c : Constructor H} {args : List (Option (Instance H))}
    {pictures : List (Option D)} {object : Instance H} (hnumbered : s.Numbered)
    (hargs : List.Forall₂ (Option.Rel (R.Shows s.journal)) args pictures)
    (hmade : (Call.construct c args (.ok object)).made? = some object)
    (hcalls : s.Calls (.construct c args (.ok object)) t) :
    R.Shows t.journal object (R.constructed c pictures)
  adapted {s t : Store H} {adapter : Adapter H} {object handle : Instance H} {d : D}
    (hobject : R.Shows s.journal object d)
    (hcalls : s.Calls (.adapt adapter object (.ok handle)) t) :
    R.Shows t.journal handle (R.adapted adapter d)
  defaulted {s t : Store H} {parameter : Parameter H} {object : Instance H}
    (hnumbered : s.Numbered) (hcalls : s.Calls (.default parameter object) t) :
    R.Shows t.journal object (R.defaulted parameter)

/-- The call is made for a registration, or for a parameter that none serves; what it was given fits
the portraits, and what came of it is described by what it was given. -/
inductive Accounts (journal : Journal H) : Call H → Prop
  | construct {r : Registration H} {chosen : Constructor H} {depth : Nat}
      {pictures : List (Option D)} {args : List (Option (Instance H))}
      {result : Except Failure (Instance H)} (hmem : r ∈ registry.toList)
      (hchosen : policy.choose? r.constructors = some chosen)
      (hpictures :
        chosen.parameters.mapM (R.delivery registry (R.portrait registry policy depth)) =
          some pictures)
      (hargs : List.Forall₂ (Option.Rel (R.Shows journal)) args pictures)
      (hresult : ∀ object, result = .ok object →
        R.Shows journal object (R.constructed chosen pictures)) :
      Accounts journal (.construct chosen args result)
  | adapt {r : Registration H} {adapter : Adapter H} {chosen : Constructor H}
      {pictures : List (Option D)} {object : Instance H} {result : Except Failure (Instance H)}
      (hmem : r ∈ registry.toList) (hadapter : r.adapter = some adapter)
      (hchosen : policy.choose? r.constructors = some chosen)
      (hobject : R.Shows journal object (R.constructed chosen pictures))
      (hresult : ∀ handle, result = .ok handle →
        R.Shows journal handle (R.adapted adapter (R.constructed chosen pictures))) :
      Accounts journal (.adapt adapter object result)
  | default {parameter : Parameter H} {object : Instance H}
      (hfind : registry.find? parameter.key = none)
      (hobject : R.Shows journal object (R.defaulted parameter)) :
      Accounts journal (.default parameter object)

end Reading

/-- What is in a cell fits the portrait of the registration, and so does what has been delivered. -/
structure Store.Portrayed (R : Reading H D) (registry : Registry H) (policy : ConstructorPolicy)
    (s : Store H) : Prop where
  numbered : s.Numbered
  kept : ∀ r ∈ registry.toList, ∀ cell object, r.cell? = some cell →
    s.cells.get? cell = some object → ∀ depth d, R.portrait registry policy depth r = some d →
      R.Shows s.journal object d
  called : ∀ call, Entry.call call ∈ s.journal.toList →
    call.Genuine ∧ R.Accounts registry policy s.journal call

structure Reading.Advances (R : Reading H D) (registry : Registry H) (policy : ConstructorPolicy)
    (s t : Store H) : Prop where
  portrayed : t.Portrayed R registry policy
  journal : s.journal.toList <+: t.journal.toList

variable {R : Reading H D} {registry : Registry H} {policy : ConstructorPolicy}
  {r : Registration H} {s t u : Store H} {depth : Nat} {d : D}

namespace Reading

theorem portrait_succ_eq_some_iff :
    R.portrait registry policy (depth + 1) r = some d ↔
      ∃ chosen pictures, policy.choose? r.constructors = some chosen ∧
        chosen.parameters.mapM (R.delivery registry (R.portrait registry policy depth)) =
          some pictures ∧
        R.presented r (R.constructed chosen pictures) = d := by
  simp [portrait, Option.bind_eq_some_iff]

theorem delivery_mono {portray more : Registration H → Option D} {parameter : Parameter H}
    {picture : Option D} (hmore : ∀ r d, portray r = some d → more r = some d)
    (h : R.delivery registry portray parameter = some picture) :
    R.delivery registry more parameter = some picture := by
  unfold delivery at h ⊢
  cases hfind : registry.find? parameter.key with
  | none =>
      rw [hfind] at h
      exact h
  | some r =>
      rw [hfind] at h
      obtain ⟨d, hd, rfl⟩ := Option.map_eq_some_iff.mp h
      exact Option.map_eq_some_iff.mpr ⟨d, hmore r d hd, rfl⟩

theorem portrait_succ (h : R.portrait registry policy depth r = some d) :
    R.portrait registry policy (depth + 1) r = some d := by
  induction depth generalizing r d with
  | zero => cases h
  | succ depth ih =>
      obtain ⟨chosen, pictures, hchosen, hpictures, hd⟩ := portrait_succ_eq_some_iff.mp h
      refine portrait_succ_eq_some_iff.mpr ⟨chosen, pictures, hchosen, ?_, hd⟩
      exact mapM_eq_some_iff.mpr ((mapM_eq_some_iff.mp hpictures).imp fun _ _ hpicture =>
        delivery_mono (fun _ _ => ih) hpicture)

theorem portrait_mono {more : Nat} (h : R.portrait registry policy depth r = some d)
    (hle : depth ≤ more) : R.portrait registry policy more r = some d := by
  induction hle with
  | refl => exact h
  | step _ ih => exact portrait_succ ih

/-- There is one portrait of a registration, however deep one looks. -/
theorem portrait_unique {other : Nat} {d' : D} (h : R.portrait registry policy depth r = some d)
    (h' : R.portrait registry policy other r = some d') : d = d' := by
  have hdeep := portrait_mono h (Nat.le_max_left depth other)
  rw [portrait_mono h' (Nat.le_max_right depth other), Option.some.injEq] at hdeep
  exact hdeep.symm

theorem exists_portrait (R : Reading H D) (h : registry.Buildable policy depth r) :
    ∃ d, R.portrait registry policy depth r = some d := by
  induction depth generalizing r with
  | zero => exact h.elim
  | succ depth ih =>
      obtain ⟨-, chosen, hchosen, hbelow⟩ := h
      have hdelivery : ∀ parameter ∈ chosen.parameters, ∃ picture,
          R.delivery registry (R.portrait registry policy depth) parameter = some picture := by
        intro parameter hparameter
        unfold delivery
        cases hfind : registry.find? parameter.key with
        | some r =>
            obtain ⟨d, hd⟩ := ih (hbelow parameter hparameter r hfind)
            exact ⟨some d, by simp [hd]⟩
        | none => cases parameter.kind <;> simp
      obtain ⟨pictures, hpictures⟩ := exists_mapM_eq_some hdelivery
      exact ⟨_, portrait_succ_eq_some_iff.mpr ⟨chosen, pictures, hchosen, hpictures, rfl⟩⟩

theorem Accounts.keep {journal later : Journal H} {call : Call H} (hR : R.Truthful registry)
    (h : R.Accounts registry policy journal call) (hextends : journal.toList <+: later.toList) :
    R.Accounts registry policy later call := by
  cases h with
  | construct hmem hchosen hpictures hargs hresult =>
      exact .construct hmem hchosen hpictures
        (hargs.imp fun _ _ harg => rel_imp harg fun _ _ => hR.keeps hextends)
        fun object hobject => hR.keeps hextends (hresult object hobject)
  | adapt hmem hadapter hchosen hobject hresult =>
      exact .adapt hmem hadapter hchosen (hR.keeps hextends hobject)
        fun handle hhandle => hR.keeps hextends (hresult handle hhandle)
  | default hfind hobject => exact .default hfind (hR.keeps hextends hobject)

end Reading

namespace Store.Numbered

theorem silent (h : s.Numbered) (hserial : s.nextSerial ≤ t.nextSerial)
    (hjournal : ∃ entries, (∀ entry ∈ entries, entry.call? = none) ∧
      t.journal.toList = s.journal.toList ++ entries) : t.Numbered := by
  obtain ⟨entries, hsilent, hentries⟩ := hjournal
  intro call object hcall hmade
  rw [hentries] at hcall
  rcases List.mem_append.mp hcall with hold | hnew
  · obtain ⟨serial, horigin, hlt⟩ := h call object hold hmade
    exact ⟨serial, horigin, Nat.lt_of_lt_of_le hlt hserial⟩
  · cases hsilent _ hnew

theorem calls {call : Call H} (h : s.Numbered) (hcalls : s.Calls call t) : t.Numbered := by
  obtain ⟨-, mid, hmid, hnew, rfl⟩ := hcalls
  intro other object hother hmade
  rw [journal_enter] at hother
  rcases List.mem_append.mp hother with hold | hlast
  · exact h.silent hmid.nextSerial hmid.journal other object hold hmade
  · cases List.mem_singleton.mp hlast
    obtain ⟨serial, horigin, -, hlt⟩ := hnew object hmade
    exact ⟨serial, horigin, hlt⟩

end Store.Numbered

theorem Store.Calls.prefix_journal {call : Call H} (h : s.Calls call t) :
    s.journal.toList <+: t.journal.toList := by
  obtain ⟨-, mid, hmid, -, rfl⟩ := h
  obtain ⟨entries, -, hentries⟩ := hmid.journal
  exact ⟨entries ++ [.call call], by simp [hentries]⟩

namespace Store.Portrayed

theorem silent (hR : R.Truthful registry) (h : s.Portrayed R registry policy)
    (hcells : t.cells = s.cells) (hserial : s.nextSerial ≤ t.nextSerial)
    (hjournal : ∃ entries, (∀ entry ∈ entries, entry.call? = none) ∧
      t.journal.toList = s.journal.toList ++ entries) : t.Portrayed R registry policy := by
  obtain ⟨entries, hsilent, hentries⟩ := hjournal
  have hextends : s.journal.toList <+: t.journal.toList := ⟨entries, hentries.symm⟩
  refine ⟨h.numbered.silent hserial ⟨entries, hsilent, hentries⟩, ?_, ?_⟩
  · intro r hr cell object hcell hobject depth d hd
    exact hR.keeps hextends (h.kept r hr cell object hcell (hcells ▸ hobject) depth d hd)
  · intro call hcall
    rw [hentries] at hcall
    rcases List.mem_append.mp hcall with hold | hnew
    · exact ⟨(h.called call hold).1, (h.called call hold).2.keep hR hextends⟩
    · cases hsilent _ hnew

theorem calls {call : Call H} (hR : R.Truthful registry) (h : s.Portrayed R registry policy)
    (hcalls : s.Calls call t) (haccounts : R.Accounts registry policy t.journal call) :
    t.Portrayed R registry policy := by
  have hnumbered := h.numbered.calls hcalls
  obtain ⟨hgenuine, mid, hmid, -, rfl⟩ := hcalls
  have hbefore := h.silent hR hmid.cells hmid.nextSerial hmid.journal
  have hextends : mid.journal.toList <+: (mid.enter (.call call)).journal.toList := by simp
  refine ⟨hnumbered, ?_, ?_⟩
  · intro r hr cell object hcell hobject depth d hd
    exact hR.keeps hextends (hbefore.kept r hr cell object hcell hobject depth d hd)
  · intro other hother
    rw [journal_enter] at hother
    rcases List.mem_append.mp hother with hold | hlast
    · exact ⟨(hbefore.called other hold).1, (hbefore.called other hold).2.keep hR hextends⟩
    · cases List.mem_singleton.mp hlast
      exact ⟨hgenuine, haccounts⟩

theorem fill (hr : registry.Assembled) (h : s.Portrayed R registry policy) {cell : Nat}
    {object : Instance H} (hmem : r ∈ registry.toList) (hcell : r.cell? = some cell)
    (hportrait : R.portrait registry policy depth r = some d)
    (hobject : R.Shows s.journal object d) : (s.fill cell object).Portrayed R registry policy := by
  refine ⟨h.numbered, ?_, h.called⟩
  intro other hother place found hplace hfound more d' hd'
  change (s.cells.fill cell object).get? place = some found at hfound
  rw [Cells.get?_fill, Option.or_eq_some_iff] at hfound
  rcases hfound with hold | ⟨-, hnew⟩
  · exact h.kept other hother place found hplace hold more d' hd'
  · split at hnew
    next heq =>
      subst heq
      cases hnew
      -- Cells are not shared, so that only `r` can have gained an instance.
      obtain rfl : other = r := hr.coherent.sequence_inj other hother r hmem <| by
        rw [Registration.sequence_of_cell? hplace, Registration.sequence_of_cell? hcell]
      exact Reading.portrait_unique hportrait hd' ▸ hobject
    next => cases hnew

end Store.Portrayed

namespace Reading.Advances

theorem refl (h : s.Portrayed R registry policy) : R.Advances registry policy s s :=
  ⟨h, List.prefix_refl _⟩

theorem trans (hst : R.Advances registry policy s t) (htu : R.Advances registry policy t u) :
    R.Advances registry policy s u :=
  ⟨htu.portrayed, hst.journal.trans htu.journal⟩

theorem calls {call : Call H} (hR : R.Truthful registry) (h : s.Portrayed R registry policy)
    (hcalls : s.Calls call t) (haccounts : R.Accounts registry policy t.journal call) :
    R.Advances registry policy s t :=
  ⟨h.calls hR hcalls haccounts, hcalls.prefix_journal⟩

end Reading.Advances

/-- The evaluation goes on from stores that are as the registry says to such stores, and what it
returns fits. -/
def Reading.Bears (R : Reading H D) (registry : Registry H) (policy : ConstructorPolicy) {α : Type}
    (m : Eval H α) (Q : Journal H → α → Prop) : Prop :=
  ∀ s : Store H, s.Portrayed R registry policy →
    Action.Ends (fun a t => R.Advances registry policy s t ∧ Q t.journal a)
      (fun _ t => R.Advances registry policy s t) (m s)

namespace Registry

variable {evaluate : Registration H → Eval H (Instance H)}

theorem supply_bears (hR : R.Truthful registry) {portray : Registration H → Option D}
    {parameter : Parameter H} {picture : Option D}
    (hevaluate : ∀ d, registry.find? parameter.key = some d → ∀ description,
      portray d = some description →
        R.Bears registry policy (evaluate d) (R.Shows · · description))
    (hpicture : R.delivery registry portray parameter = some picture) :
    R.Bears registry policy (registry.supply evaluate parameter)
      (fun journal value => Option.Rel (R.Shows journal) value picture) := by
  intro s hs
  unfold supply
  unfold Reading.delivery at hpicture
  cases hfind : registry.find? parameter.key with
  | some d =>
      rw [hfind] at hpicture
      obtain ⟨description, hdescription, rfl⟩ := Option.map_eq_some_iff.mp hpicture
      exact (hevaluate d hfind description hdescription s hs).map fun object t ht =>
        ⟨ht.1, .some ht.2⟩
  | none =>
      rw [hfind] at hpicture
      rcases parameter.substitute_calls s with ⟨hkind, hnone⟩ | ⟨object, t, hkind, hcalls, hsome⟩
      · simp only [hkind, Option.some.injEq] at hpicture
        subst hpicture
        simp only [hnone]
        exact ⟨.refl hs, .none⟩
      · simp only [hkind, Option.some.injEq] at hpicture
        subst hpicture
        simp only [hsome]
        have hobject := hR.defaulted hs.numbered hcalls
        exact ⟨.calls hR hs hcalls (.default hfind hobject), .some hobject⟩

theorem invoke_bears (hR : R.Truthful registry) {chosen : Constructor H}
    (hmem : r ∈ registry.toList) (hchosen : policy.choose? r.constructors = some chosen)
    {pictures : List (Option D)}
    (hpictures : chosen.parameters.mapM (R.delivery registry (R.portrait registry policy depth)) =
      some pictures)
    {args : List (Option (Instance H))} {s : Store H} (hs : s.Portrayed R registry policy)
    (hargs : List.Forall₂ (Option.Rel (R.Shows s.journal)) args pictures) :
    Action.Ends
      (fun object t => R.Advances registry policy s t ∧
        R.Shows t.journal object (R.constructed chosen pictures))
      (fun _ t => R.Advances registry policy s t) (chosen.invoke args s) := by
  obtain ⟨result, t, hcalls, hinvoke⟩ := chosen.invoke_calls args s
  have hresult : ∀ object, result = .ok object →
      R.Shows t.journal object (R.constructed chosen pictures) := by
    rintro object rfl
    cases hcalls.genuine with
    | handOut hrecipe =>
        exact hR.handedOut hmem (ConstructorPolicy.choose?_eq_some_iff.mp hchosen).mem hrecipe _ _
    | assemble hrecipe =>
        exact hR.assembled hs.numbered hargs (Call.made?_of_assemble hrecipe) hcalls
  have hstill := hargs.imp fun _ _ harg =>
    rel_imp harg fun _ _ => hR.keeps hcalls.prefix_journal
  have hadvances : R.Advances registry policy s t :=
    .calls hR hs hcalls (.construct hmem hchosen hpictures hstill hresult)
  rw [hinvoke]
  cases result with
  | error e => exact hadvances
  | ok object => exact ⟨hadvances, hresult object rfl⟩

theorem supplyAll_bears (hR : R.Truthful registry) {portray : Registration H → Option D}
    (hevaluate : ∀ d ∈ registry.toList, ∀ description, portray d = some description →
      R.Bears registry policy (evaluate d) (R.Shows · · description))
    {parameters : List (Parameter H)} {pictures : List (Option D)}
    (hpictures : parameters.mapM (R.delivery registry portray) = some pictures) :
    R.Bears registry policy (parameters.mapM (registry.supply evaluate))
      (fun journal args => List.Forall₂ (Option.Rel (R.Shows journal)) args pictures) := by
  intro s hs
  have hall := mapM_eq_some_iff.mp hpictures
  -- Supplying goes on in later stores, where what was supplied before must still fit.
  let Fits : Store H → Parameter H → Option (Instance H) → Prop := fun t parameter value =>
    ∀ picture, R.delivery registry portray parameter = some picture →
      Option.Rel (R.Shows t.journal) value picture
  have hfits : Action.Ends
      (fun args t => R.Advances registry policy s t ∧ List.Forall₂ (Fits t) parameters args ∧
        ∀ parameter value, Fits s parameter value → Fits t parameter value)
      (fun _ t => R.Advances registry policy s t)
      (parameters.mapM (registry.supply evaluate) s) := by
    refine Action.Ends.mapM_keeping ?_ (.refl hs)
    intro parameter hparameter t ht
    obtain ⟨picture, -, hpicture⟩ := exists_of_forall₂_left hall parameter hparameter
    refine (supply_bears hR (fun d hd => hevaluate d (Coherent.mem_of_find? hd)) hpicture t
      ht.portrayed).mono ?_ (fun _ _ h => ht.trans h)
    rintro value u ⟨hu, hvalue⟩
    refine ⟨ht.trans hu, ?_, ?_⟩
    · intro other hother
      rw [hpicture, Option.some.injEq] at hother
      exact hother ▸ hvalue
    · intro other earlier hearlier picture hpicture
      exact rel_imp (hearlier picture hpicture) fun _ _ => hR.keeps hu.journal
  refine hfits.mono ?_ (fun _ _ h => h)
  rintro args t ⟨ht, hargs, -⟩
  exact ⟨ht, forall₂_join hargs hall fun _ _ picture hfits hpicture => hfits picture hpicture⟩

theorem present_bears (hR : R.Truthful registry) {chosen : Constructor H}
    {pictures : List (Option D)} (hmem : r ∈ registry.toList)
    (hchosen : policy.choose? r.constructors = some chosen) {object : Instance H}
    (hs : s.Portrayed R registry policy)
    (hobject : R.Shows s.journal object (R.constructed chosen pictures)) :
    Action.Ends
      (fun handle t => R.Advances registry policy s t ∧
        R.Shows t.journal handle (R.presented r (R.constructed chosen pictures)))
      (fun _ t => R.Advances registry policy s t)
      ((match r.adapter with
        | some adapter => adapter.apply object
        | none => return object) s) := by
  unfold Reading.presented
  cases hadapter : r.adapter with
  | none => exact ⟨.refl hs, hobject⟩
  | some adapter =>
      obtain ⟨result, t, hcalls, happly⟩ := adapter.apply_calls object s
      have hresult : ∀ handle, result = .ok handle →
          R.Shows t.journal handle (R.adapted adapter (R.constructed chosen pictures)) := by
        rintro handle rfl
        exact hR.adapted hobject hcalls
      have ht : R.Advances registry policy s t := .calls hR hs hcalls
        (.adapt hmem hadapter hchosen (hR.keeps hcalls.prefix_journal hobject) hresult)
      simp only [happly]
      cases result with
      | ok handle => exact ⟨ht, hresult handle rfl⟩
      | error e => exact ht

theorem assemble_bears (hR : R.Truthful registry) (hmem : r ∈ registry.toList)
    (hevaluate : ∀ d ∈ registry.toList, ∀ description,
      R.portrait registry policy depth d = some description →
        R.Bears registry policy (evaluate d) (R.Shows · · description))
    (hportrait : R.portrait registry policy (depth + 1) r = some d) :
    R.Bears registry policy (registry.assemble policy evaluate r) (R.Shows · · d) := by
  intro s hs
  obtain ⟨chosen, pictures, hchosen, hpictures, rfl⟩ :=
    Reading.portrait_succ_eq_some_iff.mp hportrait
  unfold assemble
  rw [hchosen]
  refine (supplyAll_bears hR hevaluate hpictures s hs).bind ?_
  rintro args mid ⟨hmid, hargs⟩
  have hinvoked := (invoke_bears hR hmem hchosen hpictures hmid.portrayed hargs).mono
    (fun object t h => And.intro (hmid.trans h.1) h.2) (fun e t h => hmid.trans h)
  refine hinvoked.bind ?_
  rintro object t ⟨ht, hobject⟩
  exact (present_bears hR hmem hchosen ht.portrayed hobject).mono
    (fun handle u h => ⟨ht.trans h.1, h.2⟩) (fun e u h => ht.trans h)

theorem evaluate_bears (hR : R.Truthful registry) (hmem : r ∈ registry.toList)
    (hportrait : R.portrait registry policy depth r = some d) :
    R.Bears registry policy (registry.evaluate policy depth r) (R.Shows · · d) := by
  induction depth generalizing r d with
  | zero => cases hportrait
  | succ depth ih =>
      unfold evaluate
      cases hcell : r.cell? with
      | none => exact assemble_bears hR hmem (fun d hd _ => ih hd) hportrait
      | some cell =>
          intro s hs
          simp only [Action.get_bind]
          cases hobject : s.cells.get? cell with
          | none => exact .refl hs
          | some object => exact ⟨.refl hs, hs.kept r hmem cell object hcell hobject _ d hportrait⟩

theorem fillOwn_bears (hR : R.Truthful registry) (hr : registry.Assembled)
    (hmem : r ∈ registry.toList)
    (hportrait : R.portrait registry policy (depth + 1) r = some d) :
    R.Bears registry policy (registry.fillOwn policy (registry.evaluate policy depth) r)
      fun _ _ => True := by
  intro s hs
  unfold fillOwn
  cases hcell : r.cell? with
  | none => exact ⟨.refl hs, trivial⟩
  | some cell =>
      simp only [Action.get_bind]
      cases s.cells.get? cell with
      | some object => exact ⟨.refl hs, trivial⟩
      | none =>
          have hassembled :=
            assemble_bears hR hmem (fun d hd _ => evaluate_bears hR hd) hportrait s hs
          refine hassembled.bind ?_
          rintro object t ⟨ht, hobject⟩
          exact ⟨⟨ht.portrayed.fill hr hmem hcell hportrait hobject, ht.journal⟩, trivial⟩

theorem fillAll_bears (hR : R.Truthful registry) (hr : registry.Assembled)
    (hmem : r ∈ registry.toList) (hportrait : R.portrait registry policy depth r = some d) :
    R.Bears registry policy (registry.fillAll policy depth r) fun _ _ => True := by
  induction depth generalizing r d with
  | zero => cases hportrait
  | succ depth ih =>
      intro s hs
      obtain ⟨chosen, pictures, hchosen, hpictures, -⟩ :=
        Reading.portrait_succ_eq_some_iff.mp hportrait
      rw [fillAll_succ hchosen]
      have hvisited : Action.Ends (fun _ t => R.Advances registry policy s t)
          (fun _ t => R.Advances registry policy s t)
          (chosen.parameters.forM (registry.visit (registry.fillAll policy depth)) s) := by
        refine (Action.Ends.forM (I := R.Advances registry policy s) (R := fun _ _ => True) ?_
          (.refl hs)).mono (fun _ _ h => h.1) (fun _ _ h => h)
        intro parameter hparameter t ht
        obtain ⟨picture, -, hpicture⟩ :=
          exists_of_forall₂_left (mapM_eq_some_iff.mp hpictures) parameter hparameter
        unfold visit
        unfold Reading.delivery at hpicture
        cases hfind : registry.find? parameter.key with
        | none => exact ⟨ht, trivial, fun _ h => h⟩
        | some other =>
            rw [hfind] at hpicture
            obtain ⟨description, hdescription, -⟩ := Option.map_eq_some_iff.mp hpicture
            exact (ih (Coherent.mem_of_find? hfind) hdescription t ht.portrayed).mono
              (fun _ _ h => ⟨ht.trans h.1, trivial, fun _ h => h⟩) (fun _ _ h => ht.trans h)
      refine hvisited.bind fun _ t ht => ?_
      exact (fillOwn_bears hR hr hmem hportrait t ht.portrayed).mono
        (fun _ _ h => ⟨ht.trans h.1, trivial⟩) (fun _ _ h => ht.trans h)

end Registry

end Wiring
