import Wiring.Proofs.Injection.Portraits
import Wiring.Proofs.Injection.Products

namespace Wiring

variable {H : Host}

/-- How an instance came about. A handle has the lineage of what it is a handle to. -/
inductive Lineage (H : Host) where
  | ready (origin : Origin)
  | standard (parameter : Parameter H)
  | built (callee : Constructor H) (args : List (Option (Lineage H)))

def Call.serial? (call : Call H) : Option Nat :=
  call.made?.bind (·.origin.serial?)

namespace Lineage

def of? (known : Nat → Option (Lineage H)) : Origin → Option (Lineage H)
  | .given sequence => some (.ready (.given sequence))
  | .built serial => known serial

def ofArgument? (known : Nat → Option (Lineage H)) :
    Option (Instance H) → Option (Option (Lineage H))
  | none => some none
  | some object => some <$> of? known object.origin

/-- The lineage of what a call has made. -/
def ofCall? (known : Nat → Option (Lineage H)) : Call H → Option (Lineage H)
  | .construct callee args _ => .built callee <$> args.mapM (ofArgument? known)
  | .default parameter _ => some (.standard parameter)
  | .adapt _ _ _ => none

/-- What is known after one more entry. What was known before stands. -/
def learn (known : Nat → Option (Lineage H)) (entry : Entry H) (serial : Nat) :
    Option (Lineage H) :=
  match entry with
  | .call call =>
    (known serial).or (if call.serial? = some serial then ofCall? known call else none)
  | _ => known serial

def known (entries : List (Entry H)) : Nat → Option (Lineage H) :=
  entries.foldl learn fun _ => none

end Lineage

/-- What the journal tells of the lineage of an instance. -/
def Journal.lineage? (journal : Journal H) (object : Instance H) : Option (Lineage H) :=
  Lineage.of? (Lineage.known journal.toList) object.origin

namespace Lineage

variable {known : Nat → Option (Lineage H)} {entries : List (Entry H)} {serial : Nat}
  {lineage : Lineage H}

theorem foldl_learn_of_some (h : known serial = some lineage) :
    entries.foldl learn known serial = some lineage := by
  induction entries generalizing known with
  | nil => exact h
  | cons entry rest ih =>
      apply ih
      cases entry <;> simp [learn, h]

theorem foldl_learn_of_ne
    (h : ∀ call : Call H, Entry.call call ∈ entries → call.serial? ≠ some serial) :
    entries.foldl learn known serial = known serial := by
  induction entries generalizing known with
  | nil => rfl
  | cons entry rest ih =>
      refine (ih fun call hcall => h call (List.mem_cons_of_mem _ hcall)).trans ?_
      cases entry with
      | call call => simp [learn, h call (List.mem_cons_self ..)]
      | remark => rfl
      | notice => rfl

end Lineage

theorem Store.Calls.lineage?_made {s t : Store H} {call : Call H} {object : Instance H}
    {lineage : Lineage H} (h : s.Calls call t) (hnumbered : s.Numbered)
    (hmade : call.made? = some object)
    (hlineage : Lineage.ofCall? (Lineage.known s.journal.toList) call = some lineage) :
    t.journal.lineage? object = some lineage := by
  obtain ⟨-, mid, hmid, hnew, rfl⟩ := h
  obtain ⟨serial, horigin, hfresh, -⟩ := hnew object hmade
  obtain ⟨entries, hsilent, hentries⟩ := hmid.journal
  -- Whatever was made before has a smaller number, so the journal knows nothing of this one.
  have hunknown : Lineage.known s.journal.toList serial = none := by
    refine Lineage.foldl_learn_of_ne fun other hother hserial => ?_
    obtain ⟨earlier, hearlier, hnumber⟩ := Option.bind_eq_some_iff.mp hserial
    obtain ⟨number, hbuilt, hlt⟩ := hnumbered other earlier hother hearlier
    rw [hbuilt, Origin.serial?, Option.some.injEq] at hnumber
    omega
  have hknown : Lineage.known mid.journal.toList = Lineage.known s.journal.toList := by
    funext number
    rw [Lineage.known, hentries, List.foldl_append]
    refine Lineage.foldl_learn_of_ne fun other hother => ?_
    cases hsilent _ hother
  have hserial : call.serial? = some serial := by
    simp [Call.serial?, hmade, horigin, Origin.serial?]
  unfold Journal.lineage?
  rw [horigin, journal_enter, Lineage.known, List.foldl_append]
  change Lineage.learn (Lineage.known mid.journal.toList) (.call call) serial = some lineage
  simp [hknown, Lineage.learn, hunknown, hserial, hlineage]

theorem Journal.lineage?_of_prefix {journal later : Journal H} {object : Instance H}
    {lineage : Lineage H} (hextends : journal.toList <+: later.toList)
    (h : journal.lineage? object = some lineage) : later.lineage? object = some lineage := by
  obtain ⟨entries, hentries⟩ := hextends
  unfold lineage? at h ⊢
  cases horigin : object.origin with
  | given sequence => simpa [horigin, Lineage.of?] using h
  | built serial =>
      rw [horigin] at h
      rw [← hentries, Lineage.known, List.foldl_append]
      exact Lineage.foldl_learn_of_some h

theorem Lineage.mapM_ofArgument? {journal : Journal H} {args : List (Option (Instance H))}
    {lineages : List (Option (Lineage H))}
    (h : List.Forall₂ (Option.Rel fun object lineage => journal.lineage? object = some lineage)
      args lineages) :
    args.mapM (ofArgument? (known journal.toList)) = some lineages := by
  refine mapM_eq_some_iff.mpr (h.imp fun arg lineage harg => ?_)
  cases harg with
  | none => rfl
  | some hobject => exact congrArg (some <$> ·) hobject

def ancestry : Reading H (Lineage H) where
  describe journal object := journal.lineage? object
  constructed c args :=
    match c.recipe with
    | .assemble _ => .built c args
    | .handOut object => .ready object.origin
  adapted _ lineage := lineage
  defaulted := .standard

theorem ancestry_truthful {registry : Registry H} (hready : registry.HandsOutReadyMade) :
    ancestry.Truthful registry where
  keeps hextends hshows := Journal.lineage?_of_prefix hextends hshows
  handedOut := by
    intro r c object hmem hc hrecipe journal pictures
    have hnone := hready r hmem c hc object hrecipe
    unfold Reading.Shows ancestry Journal.lineage?
    simp only [hrecipe]
    cases horigin : object.origin with
    | given sequence => rfl
    | built serial =>
        rw [horigin] at hnone
        cases hnone
  assembled := by
    intro s t c args pictures object hnumbered hargs hmade hcalls
    have hlineage := congrArg (Lineage.built c <$> ·) (Lineage.mapM_ofArgument? hargs)
    refine (hcalls.lineage?_made hnumbered hmade hlineage).trans ?_
    cases hrecipe : c.recipe with
    | assemble code => simp [ancestry, hrecipe]
    | handOut given => simp [Call.made?, hrecipe] at hmade
  adapted := by
    intro s t adapter object handle lineage hobject hcalls
    have hstill := Journal.lineage?_of_prefix hcalls.prefix_journal hobject
    cases hcalls.genuine with
    | convert => exact hstill
  defaulted := by
    intro s t parameter object hnumbered hcalls
    exact hcalls.lineage?_made hnumbered rfl rfl

theorem Reading.Accounts.lineage?_made {registry : Registry H} {policy : ConstructorPolicy}
    {journal : Journal H} {call : Call H} {object : Instance H}
    (h : ancestry.Accounts registry policy journal call) (hmade : call.made? = some object) :
    ∃ lineage, journal.lineage? object = some lineage ∧
      Lineage.ofCall? (Lineage.known journal.toList) call = some lineage := by
  cases h with
  | @construct _ chosen _ pictures _ result _ _ _ hargs hresult =>
      cases result with
      | error e => cases hmade
      | ok made =>
          have hshows := hresult made rfl
          cases hrecipe : chosen.recipe with
          | handOut => simp [Call.made?, hrecipe] at hmade
          | assemble code =>
              rw [Call.made?_of_assemble hrecipe, Option.some.injEq] at hmade
              subst hmade
              simp only [Reading.Shows, ancestry, hrecipe] at hshows
              exact ⟨_, hshows, congrArg (Lineage.built chosen <$> ·)
                (Lineage.mapM_ofArgument? hargs)⟩
  | adapt => cases hmade
  | default _ hobject =>
      cases hmade
      exact ⟨_, hobject, rfl⟩

end Wiring
