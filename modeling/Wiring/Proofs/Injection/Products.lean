import Mathlib.Data.List.Perm.Subperm
import Wiring.Proofs.Injection.Activity
import Wiring.Proofs.Registry.Selection

/-!
What is made, and who gets it. Every successful call of a constructor accounts for one product, and
so does every default; arguments that are not singletons are products, and each of them uses one up.
Evaluations are specified by the products that they take and leave. What they do not mention stays
in custody, so that the specifications can be put one after the other.
-/

namespace Wiring

variable {H : Host}

/-- Something that was made, and the registration that it was made for. Defaults are made for
none. -/
structure Product (H : Host) where
  owner : Option (Registration H)
  origin : Origin

def Origin.serial? : Origin → Option Nat
  | .given _ => none
  | .built serial => some serial

/-- What a consumer of the registration has to itself: all but the instance of a singleton. -/
def Registration.product? (r : Registration H) (object : Instance H) : Option (Product H) :=
  match r.lifetime with
  | .singleton => none
  | .transient => some ⟨some r, object.origin⟩

def Registry.product? (registry : Registry H) (delivery : Key × Instance H) :
    Option (Product H) :=
  match registry.find? delivery.1 with
  | none => some ⟨none, delivery.2.origin⟩
  | some r => r.product? delivery.2

def Constructor.deliveries (c : Constructor H) (args : List (Option (Instance H))) :
    List (Key × Instance H) :=
  (c.parameters.zip args).filterMap fun (parameter, arg) => arg.map (parameter.key, ·)

namespace Entry

def deliveries : Entry H → List (Key × Instance H)
  | .call (.construct callee args _) => callee.deliveries args
  | _ => []

/-- Whether something was made: a constructor has succeeded, or a default was used. -/
def isProductive : Entry H → Bool
  | .call (.construct _ _ (.ok _)) => true
  | .call (.default _ _) => true
  | _ => false

end Entry

inductive Product.MadeBy (registry : Registry H) (policy : ConstructorPolicy) :
    Product H → Entry H → Prop
  | construct {r : Registration H} {chosen : Constructor H} {args : List (Option (Instance H))}
      {object : Instance H} (hmem : r ∈ registry.toList)
      (hchosen : policy.choose? r.constructors = some chosen) :
      MadeBy registry policy ⟨some r, object.origin⟩ (.call (.construct chosen args (.ok object)))
  | default {parameter : Parameter H} {object : Instance H}
      (hfind : registry.find? parameter.key = none) :
      MadeBy registry policy ⟨none, object.origin⟩ (.call (.default parameter object))

namespace Registry

/-- What constructors hand out was there before the container: no constructor has built it. -/
def HandsOutReadyMade (registry : Registry H) : Prop :=
  ∀ r ∈ registry.toList, ∀ c ∈ r.constructors, ∀ object, c.recipe = .handOut object →
    object.origin.serial? = none

/-- What a parameter takes for itself of an argument. -/
def portion? (registry : Registry H) (parameter : Parameter H) (arg : Option (Instance H)) :
    Option (Product H) :=
  arg.bind fun object => registry.product? (parameter.key, object)

end Registry

def serials (made : List (Product H)) : List Nat :=
  made.filterMap (·.origin.serial?)

/-- The books on everything that was made, in the order of the journal. The products in `held` are
on their way to a consumer. -/
structure Store.Balanced (registry : Registry H) (policy : ConstructorPolicy)
    (made held : List (Product H)) (s : Store H) : Prop where
  ascribed : List.Forall₂ (Product.MadeBy registry policy) made
    (s.journal.toList.filter Entry.isProductive)
  /-- Nothing is delivered twice, and what is held was not delivered before. -/
  spent : ((s.journal.toList.flatMap Entry.deliveries).filterMap registry.product? ++ held).Subperm
    made
  kept : ∀ r ∈ registry.toList, r.givenInstance = none → ∀ cell object, r.cell? = some cell →
    s.cells.get? cell = some object → ⟨some r, object.origin⟩ ∈ made
  numbered : registry.HandsOutReadyMade →
    (serials made).Pairwise (· < ·) ∧ ∀ serial ∈ serials made, serial < s.nextSerial

def Store.Solvent (registry : Registry H) (policy : ConstructorPolicy) (held : List (Product H))
    (s : Store H) : Prop :=
  ∃ made, s.Balanced registry policy made held

variable {registry : Registry H} {policy : ConstructorPolicy} {made held taken : List (Product H)}
  {s t : Store H} {r : Registration H}

namespace Registration

theorem product?_of_cell (r : Registration H) {cell : Nat} (hcell : r.cell? = some cell)
    (object : Instance H) : r.product? object = none := by
  have hsingleton := (cell?_eq_some_iff.mp hcell).1
  rw [product?, hsingleton]

theorem product?_of_no_cell (r : Registration H) (hcell : r.cell? = none) (object : Instance H) :
    r.product? object = some ⟨some r, object.origin⟩ := by
  unfold product?
  cases hlifetime : r.lifetime with
  | singleton =>
      rw [cell?_eq_some_iff.mpr ⟨hlifetime, rfl⟩] at hcell
      cases hcell
  | transient => rfl

end Registration

theorem Registry.handsOutReadyMade_of_all
    (hall : ∀ r ∈ registry.toList, (r.constructors.all fun c =>
      match c.recipe with
      | .handOut object => object.origin.serial?.isNone
      | .assemble _ => true) = true) : registry.HandsOutReadyMade := by
  intro r hr c hc object hrecipe
  have hown := List.all_eq_true.mp (hall r hr) c hc
  rw [hrecipe] at hown
  exact Option.isNone_iff_eq_none.mp hown

theorem Registry.HandsOutReadyMade.of_given (h : registry.HandsOutReadyMade)
    (hmem : r ∈ registry.toList) {object : Instance H} (hgiven : r.givenInstance = some object) :
    object.origin.serial? = none := by
  obtain ⟨key, provision, sequence⟩ := r
  cases provision with
  | construct => cases hgiven
  | given found =>
      cases hgiven
      exact h _ hmem (.ofInstance object) (List.mem_singleton_self _) object rfl

namespace Entry

theorem deliveries_of_silent {entry : Entry H} (h : entry.call? = none) :
    entry.deliveries = [] := by
  cases entry with
  | call => cases h
  | remark => rfl
  | notice => rfl

theorem isProductive_of_silent {entry : Entry H} (h : entry.call? = none) :
    entry.isProductive = false := by
  cases entry with
  | call => cases h
  | remark => rfl
  | notice => rfl

end Entry

theorem Store.Created.serials_bounded {object : Instance H} (h : s.Created t object)
    (owner : Option (Registration H)) :
    ∀ serial ∈ serials [⟨owner, object.origin⟩], s.nextSerial ≤ serial ∧ serial < t.nextSerial := by
  obtain ⟨number, horigin, hbounds⟩ := h
  simpa [serials, horigin, Origin.serial?] using hbounds

namespace Store.Balanced

theorem release (h : s.Balanced registry policy made held) (hless : taken.Subperm held) :
    s.Balanced registry policy made taken :=
  ⟨h.ascribed, ((List.subperm_append_left _).mpr hless).trans h.spent, h.kept, h.numbered⟩

theorem silent (h : s.Balanced registry policy made held) (hcells : t.cells = s.cells)
    (hserial : s.nextSerial ≤ t.nextSerial)
    (hjournal : ∃ entries, (∀ entry ∈ entries, entry.call? = none) ∧
      t.journal.toList = s.journal.toList ++ entries) : t.Balanced registry policy made held := by
  obtain ⟨entries, hsilent, hentries⟩ := hjournal
  have hproductive : entries.filter Entry.isProductive = [] :=
    List.filter_eq_nil_iff.mpr fun entry hentry => by
      simp [Entry.isProductive_of_silent (hsilent entry hentry)]
  have hdeliveries : entries.flatMap Entry.deliveries = [] :=
    List.flatMap_eq_nil_iff.mpr fun entry hentry =>
      Entry.deliveries_of_silent (hsilent entry hentry)
  refine ⟨?_, ?_, hcells ▸ h.kept, fun hgiven => ?_⟩
  · simpa [hentries, hproductive] using h.ascribed
  · simpa [hentries, hdeliveries] using h.spent
  · obtain ⟨hordered, hbelow⟩ := h.numbered hgiven
    exact ⟨hordered, fun serial hmem => Nat.lt_of_lt_of_le (hbelow serial hmem) hserial⟩

theorem chatter (h : s.Balanced registry policy made held) (hst : s.Chatter t) :
    t.Balanced registry policy made held :=
  h.silent hst.cells hst.nextSerial hst.journal

theorem record {entry : Entry H} (product : Option (Product H)) {left : List (Product H)}
    (h : s.Balanced registry policy made held) (hst : s.Chatter t)
    (hascribed : List.Forall₂ (Product.MadeBy registry policy) product.toList
      ([entry].filter Entry.isProductive))
    (hspent : (entry.deliveries.filterMap registry.product? ++ left).Subperm
      (held ++ product.toList))
    (hnumbered : registry.HandsOutReadyMade → ∀ serial ∈ serials product.toList,
      s.nextSerial ≤ serial ∧ serial < t.nextSerial) :
    (t.enter entry).Balanced registry policy (made ++ product.toList) left where
  ascribed := by
    rw [journal_enter, List.filter_append]
    exact List.rel_append (h.chatter hst).ascribed hascribed
  spent := by
    rw [journal_enter, List.flatMap_append, List.filterMap_append, List.append_assoc]
    have hstill := (List.subperm_append_right product.toList).mpr (h.chatter hst).spent
    rw [List.append_assoc] at hstill
    refine ((List.subperm_append_left _).mpr ?_).trans hstill
    simpa using hspent
  kept := fun d hd hgiven cell object hcell hobject =>
    List.mem_append_left _ ((h.chatter hst).kept d hd hgiven cell object hcell hobject)
  numbered := by
    intro hgiven
    obtain ⟨hordered, hbelow⟩ := h.numbered hgiven
    have hnew := hnumbered hgiven
    unfold serials at *
    rw [List.filterMap_append]
    refine ⟨List.pairwise_append.mpr ⟨hordered, ?_, ?_⟩, ?_⟩
    · cases product with
      | none => simp
      | some product => cases hserial : product.origin.serial? <;> simp [hserial]
    · intro earlier hearlier serial hserial
      exact Nat.lt_of_lt_of_le (hbelow earlier hearlier) (hnew serial hserial).1
    · intro serial hserial
      rcases List.mem_append.mp hserial with hold | hnewest
      · exact Nat.lt_of_lt_of_le (hbelow serial hold) hst.nextSerial
      · exact (hnew serial hnewest).2

theorem fill {cell : Nat} {object : Instance H} (hr : registry.Assembled)
    (h : s.Balanced registry policy made (held ++ [⟨some r, object.origin⟩]))
    (hmem : r ∈ registry.toList) (hcell : r.cell? = some cell) :
    (s.fill cell object).Balanced registry policy made held := by
  refine ⟨h.ascribed, (h.release (List.sublist_append_left _ _).subperm).spent, ?_, h.numbered⟩
  intro d hd hgiven other found hother hfound
  change (s.cells.fill cell object).get? other = some found at hfound
  rw [Cells.get?_fill, Option.or_eq_some_iff] at hfound
  rcases hfound with hold | ⟨-, hnew⟩
  · exact h.kept d hd hgiven other found hother hold
  · split at hnew
    next heq =>
      subst heq
      cases hnew
      -- Cells are not shared, so that only `r` can have gained an instance.
      obtain rfl : d = r := hr.coherent.sequence_inj d hd r hmem <| by
        rw [Registration.sequence_of_cell? hother, Registration.sequence_of_cell? hcell]
      exact h.spent.subset (by simp)
    next => cases hnew

end Store.Balanced

namespace Store.Solvent

theorem release (h : s.Solvent registry policy held) (hless : taken.Subperm held) :
    s.Solvent registry policy taken := by
  obtain ⟨made, hmade⟩ := h
  exact ⟨made, hmade.release hless⟩

theorem silent (h : s.Solvent registry policy held) (hcells : t.cells = s.cells)
    (hserial : s.nextSerial ≤ t.nextSerial)
    (hjournal : ∃ entries, (∀ entry ∈ entries, entry.call? = none) ∧
      t.journal.toList = s.journal.toList ++ entries) : t.Solvent registry policy held := by
  obtain ⟨made, hmade⟩ := h
  exact ⟨made, hmade.silent hcells hserial hjournal⟩

end Store.Solvent

/-- The evaluation takes products and leaves others. If it fails, it leaves none. Either way it
stays away from what is held besides. -/
def Exchanges {α : Type} (registry : Registry H) (policy : ConstructorPolicy)
    (taken : List (Product H)) (m : Eval H α) (given : α → List (Product H)) : Prop :=
  ∀ (s : Store H) (held : List (Product H)), s.Solvent registry policy (held ++ taken) →
    Action.Ends (fun a t => t.Solvent registry policy (held ++ given a))
      (fun _ t => t.Solvent registry policy held) (m s)

namespace Exchanges

variable {α β : Type} {m : Eval H α} {given : α → List (Product H)}

theorem pure {a : α} (h : given a = taken) : Exchanges registry policy taken (pure a) given := by
  subst h
  exact fun _ _ hs => hs

theorem throw (e : Failure) : Exchanges registry policy taken (throw e : Eval H α) given :=
  fun _ _ h => h.release (List.sublist_append_left _ _).subperm

theorem bind {f : α → Eval H β} {last : β → List (Product H)}
    (hm : Exchanges registry policy taken m given)
    (hf : ∀ a, Exchanges registry policy (given a) (f a) last) :
    Exchanges registry policy taken (m >>= f) last :=
  fun s held h => (hm s held h).bind fun a t ht => hf a t held ht

theorem map {f : α → β} {last : β → List (Product H)}
    (hm : Exchanges registry policy taken m given) (hf : ∀ a, last (f a) = given a) :
    Exchanges registry policy taken (f <$> m) last := by
  intro s held h
  exact (hm s held h).map fun a t ht => hf a ▸ ht

theorem ofState {f : Store H → Eval H α} (hf : ∀ s, Exchanges registry policy taken (f s) given) :
    Exchanges registry policy taken (get >>= f) given :=
  fun s => hf s s

theorem frame (hm : Exchanges registry policy taken m given) (extra : List (Product H)) :
    Exchanges registry policy (extra ++ taken) m fun a => extra ++ given a := by
  intro s held h
  rw [← List.append_assoc] at h
  refine (hm s (held ++ extra) h).mono ?_ ?_
  · intro a t ht
    rwa [List.append_assoc] at ht
  · exact fun _ _ ht => ht.release (List.sublist_append_left _ _).subperm

theorem mapM {f : α → Eval H β} (portion : α → β → Option (Product H)) {elements : List α}
    (hf : ∀ a ∈ elements, Exchanges registry policy [] (f a) fun b => (portion a b).toList) :
    Exchanges registry policy [] (elements.mapM f) fun results =>
      (elements.zip results).filterMap fun (a, b) => portion a b := by
  induction elements with
  | nil => exact .pure rfl
  | cons a rest ih =>
      rw [List.mapM_cons]
      refine (hf a (by simp)).bind fun b => ?_
      have hrest := (ih fun other hother => hf other (by simp [hother])).frame (portion a b).toList
      rw [List.append_nil] at hrest
      refine hrest.bind fun others => ?_
      apply pure
      cases hportion : portion a b <;> simp [hportion]

theorem forM {f : α → Eval H PUnit} {elements : List α}
    (hf : ∀ a ∈ elements, Exchanges registry policy [] (f a) fun _ => []) :
    Exchanges registry policy [] (elements.forM f) fun _ => [] := by
  induction elements with
  | nil => exact .pure rfl
  | cons a rest ih =>
      rw [List.forM_eq_forM, List.forM_cons]
      exact (hf a (by simp)).bind fun _ => ih fun other hother => hf other (by simp [hother])

theorem substitute {parameter : Parameter H} (hfind : registry.find? parameter.key = none) :
    Exchanges registry policy [] parameter.substitute fun value =>
      (registry.portion? parameter value).toList := by
  rintro s held ⟨made, hmade⟩
  rw [List.append_nil] at hmade
  rcases parameter.substitute_eq s with hnone | ⟨mid, object, hmid, hcreated, hsome⟩
  · rw [hnone]
    exact ⟨made, (List.append_nil held).symm ▸ hmade⟩
  · have hportion : registry.portion? parameter (some object) = some ⟨none, object.origin⟩ := by
      simp [Registry.portion?, Registry.product?, hfind]
    rw [hsome]
    change Store.Solvent registry policy (held ++ (registry.portion? parameter object).toList) _
    rw [hportion]
    exact ⟨_, hmade.record (some ⟨none, object.origin⟩) hmid
      (.cons (.default hfind) .nil) (.refl _) fun _ => hcreated.serials_bounded none⟩

theorem invoke {chosen : Constructor H} (hmem : r ∈ registry.toList)
    (hchosen : policy.choose? r.constructors = some chosen) (args : List (Option (Instance H))) :
    Exchanges registry policy ((chosen.deliveries args).filterMap registry.product?)
      (chosen.invoke args) fun object => [⟨some r, object.origin⟩] := by
  rintro s held ⟨made, hmade⟩
  obtain ⟨mid, result, hmid, hyields, hinvoke⟩ := chosen.invoke_eq args s
  rw [hinvoke]
  cases result with
  | error e =>
      refine ⟨_, hmade.record none hmid .nil ?_ (by simp [serials])⟩
      simpa [Entry.deliveries] using List.perm_append_comm.subperm
  | ok object =>
      refine ⟨_, hmade.record (some ⟨some r, object.origin⟩) hmid
        (.cons (.construct hmem hchosen) .nil) ?_ ?_⟩
      · simp only [Entry.deliveries, Option.toList_some, ← List.append_assoc]
        exact (List.perm_append_comm.append_right _).subperm
      · intro hgiven serial hserial
        have hobject := hyields object rfl
        unfold Constructor.Yields at hobject
        split at hobject
        next given hrecipe =>
          have hmade := hgiven r hmem chosen (ConstructorPolicy.choose?_eq_some_iff.mp hchosen).mem
            given hrecipe
          simp [serials, hobject, hmade] at hserial
        next => exact hobject.serials_bounded _ serial hserial

theorem apply (adapter : Adapter H) (owner : Option (Registration H)) (object : Instance H) :
    Exchanges registry policy [⟨owner, object.origin⟩] (adapter.apply object) fun handle =>
      [⟨owner, handle.origin⟩] := by
  rintro s held ⟨made, hmade⟩
  obtain ⟨mid, result, hmid, horigin, happly⟩ := adapter.apply_eq object s
  have hentered (left : List (Product H))
      (hless : left.Subperm (held ++ [⟨owner, object.origin⟩])) :
      (mid.enter (.call (.adapt adapter object result))).Solvent registry policy left :=
    ⟨_, hmade.record none hmid .nil (by simpa [Entry.deliveries] using hless)
      (by simp [serials])⟩
  rw [happly]
  cases result with
  | error e => exact hentered held (List.sublist_append_left _ _).subperm
  | ok handle =>
      have hsame : (⟨owner, handle.origin⟩ : Product H) = ⟨owner, object.origin⟩ :=
        congrArg (Product.mk owner) (horigin handle rfl)
      exact hentered _ (hsame ▸ .refl _)

theorem fill {cell : Nat} {object : Instance H} (hr : registry.Assembled)
    (hmem : r ∈ registry.toList) (hcell : r.cell? = some cell) :
    Exchanges registry policy [⟨some r, object.origin⟩]
      (modify (·.fill cell object) : Eval H Unit) fun _ => [] := by
  rintro s held ⟨made, hmade⟩
  exact ⟨made, (List.append_nil held).symm ▸ hmade.fill hr hmem hcell⟩

end Exchanges

namespace Registry

theorem supply_exchanges {evaluate : Registration H → Eval H (Instance H)}
    {parameter : Parameter H}
    (hevaluate : ∀ d, registry.find? parameter.key = some d →
      Exchanges registry policy [] (evaluate d) fun object => (d.product? object).toList) :
    Exchanges registry policy [] (registry.supply evaluate parameter) fun value =>
      (registry.portion? parameter value).toList := by
  unfold supply
  cases hfind : registry.find? parameter.key with
  | none => exact .substitute hfind
  | some d =>
      refine (hevaluate d hfind).map fun object => ?_
      simp [portion?, product?, hfind]

theorem assemble_exchanges {evaluate : Registration H → Eval H (Instance H)}
    (hmem : r ∈ registry.toList)
    (hevaluate : ∀ d ∈ registry.toList,
      Exchanges registry policy [] (evaluate d) fun object => (d.product? object).toList) :
    Exchanges registry policy [] (registry.assemble policy evaluate r) fun object =>
      [⟨some r, object.origin⟩] := by
  unfold assemble
  cases hchosen : policy.choose? r.constructors with
  | none => exact .throw _
  | some chosen =>
      refine (Exchanges.mapM registry.portion? fun parameter _ =>
        supply_exchanges fun d hd => hevaluate d (Coherent.mem_of_find? hd)).bind fun args => ?_
      have hargs : ((chosen.parameters.zip args).filterMap fun (parameter, arg) =>
          registry.portion? parameter arg) =
            (chosen.deliveries args).filterMap registry.product? := by
        simp only [Constructor.deliveries, List.filterMap_filterMap]
        congr 1
        funext ⟨parameter, arg⟩
        cases arg <;> rfl
      rw [hargs]
      refine (Exchanges.invoke hmem hchosen args).bind fun object => ?_
      cases r.adapter with
      | none => exact .pure rfl
      | some adapter => exact .apply adapter (some r) object

theorem evaluate_exchanges (depth : Nat) (hmem : r ∈ registry.toList) :
    Exchanges registry policy [] (registry.evaluate policy depth r) fun object =>
      (r.product? object).toList := by
  induction depth generalizing r with
  | zero => exact .throw _
  | succ depth ih =>
      unfold evaluate
      cases hcell : r.cell? with
      | some cell =>
          refine .ofState fun s => ?_
          cases s.cells.get? cell with
          | some object => exact .pure (by rw [r.product?_of_cell hcell]; rfl)
          | none => exact .throw _
      | none =>
          simp only [r.product?_of_no_cell hcell]
          exact assemble_exchanges hmem fun d hd => ih hd

theorem fillOwn_exchanges (hr : registry.Assembled) (depth : Nat) (hmem : r ∈ registry.toList) :
    Exchanges registry policy [] (registry.fillOwn policy (registry.evaluate policy depth) r)
      fun _ => [] := by
  unfold fillOwn
  cases hcell : r.cell? with
  | none => exact .pure rfl
  | some cell =>
      refine .ofState fun s => ?_
      cases s.cells.get? cell with
      | some object => exact .pure rfl
      | none =>
          exact (assemble_exchanges hmem fun d hd => evaluate_exchanges depth hd).bind
            fun object => .fill hr hmem hcell

theorem fillAll_exchanges (hr : registry.Assembled) (depth : Nat) (hmem : r ∈ registry.toList) :
    Exchanges registry policy [] (registry.fillAll policy depth r) fun _ => [] := by
  induction depth generalizing r with
  | zero => exact .throw _
  | succ depth ih =>
      unfold fillAll
      cases hchosen : policy.choose? r.constructors with
      | none => exact .throw _
      | some chosen =>
          refine (Exchanges.forM fun parameter _ => ?_).bind fun _ =>
            fillOwn_exchanges hr depth hmem
          unfold visit
          cases hfind : registry.find? parameter.key with
          | none => exact .pure rfl
          | some d => exact ih (Coherent.mem_of_find? hfind)

end Registry

end Wiring
