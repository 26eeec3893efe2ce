import Wiring.Proofs.Injection.Activity

namespace Wiring

variable {H : Host}

/-- The call is made to build the registration. -/
inductive Call.OnBehalfOf (registry : Registry H) (policy : ConstructorPolicy)
    (r : Registration H) : Call H → Prop
  | construct {chosen : Constructor H} {args : List (Option (Instance H))}
      {result : Except Failure (Instance H)}
      (hchosen : policy.choose? r.constructors = some chosen) :
      OnBehalfOf registry policy r (.construct chosen args result)
  | adapt {adapter : Adapter H} {object : Instance H} {result : Except Failure (Instance H)}
      (hadapter : r.adapter = some adapter) :
      OnBehalfOf registry policy r (.adapt adapter object result)
  | default {chosen : Constructor H} {parameter : Parameter H} {object : Instance H}
      (hchosen : policy.choose? r.constructors = some chosen)
      (hparameter : parameter ∈ chosen.parameters)
      (hfind : registry.find? parameter.key = none) :
      OnBehalfOf registry policy r (.default parameter object)

/-- From `s` to `t` calls have only been made to build registrations of this kind. -/
def Store.BuildsOnly (registry : Registry H) (policy : ConstructorPolicy)
    (P : Registration H → Prop) (s t : Store H) : Prop :=
  ∃ entries, t.journal.toList = s.journal.toList ++ entries ∧
    ∀ call, Entry.call call ∈ entries →
      ∃ r ∈ registry.toList, P r ∧ call.OnBehalfOf registry policy r

variable {registry : Registry H} {policy : ConstructorPolicy} {P : Registration H → Prop}
  {r : Registration H} {s t : Store H}

instance : Std.Refl (Store.BuildsOnly registry policy P) :=
  ⟨fun _ => ⟨[], (List.append_nil _).symm, fun _ h => absurd h List.not_mem_nil⟩⟩

instance : IsTrans (Store H) (Store.BuildsOnly registry policy P) := ⟨by
  rintro s t u ⟨first, hs, hfirst⟩ ⟨second, ht, hsecond⟩
  refine ⟨first ++ second, by rw [ht, hs, List.append_assoc], fun call hcall => ?_⟩
  rcases List.mem_append.mp hcall with hold | hnew
  · exact hfirst call hold
  · exact hsecond call hnew⟩

namespace Store.BuildsOnly

theorem of_silent
    (hjournal : ∃ entries, (∀ entry ∈ entries, entry.call? = none) ∧
      t.journal.toList = s.journal.toList ++ entries) : BuildsOnly registry policy P s t := by
  obtain ⟨entries, hsilent, hentries⟩ := hjournal
  refine ⟨entries, hentries, fun call hcall => ?_⟩
  cases hsilent _ hcall

theorem of_journal_eq (h : t.journal = s.journal) : BuildsOnly registry policy P s t :=
  ⟨[], by rw [h, List.append_nil], fun _ h => absurd h List.not_mem_nil⟩

theorem of_calls {call : Call H} (hmem : r ∈ registry.toList) (hr : P r)
    (hcall : call.OnBehalfOf registry policy r) (h : s.Calls call t) :
    BuildsOnly registry policy P s t := by
  obtain ⟨-, mid, hmid, -, rfl⟩ := h
  refine trans_of _ (of_silent hmid.journal) ⟨[.call call], Store.journal_enter _ _, ?_⟩
  intro other hother
  cases List.mem_singleton.mp hother
  exact ⟨r, hmem, hr, hcall⟩

theorem mono {Q : Registration H → Prop} (h : BuildsOnly registry policy P s t)
    (hPQ : ∀ r, P r → Q r) : BuildsOnly registry policy Q s t := by
  obtain ⟨entries, hentries, hcalls⟩ := h
  refine ⟨entries, hentries, fun call hcall => ?_⟩
  obtain ⟨r, hmem, hr, hbehalf⟩ := hcalls call hcall
  exact ⟨r, hmem, hPQ r hr, hbehalf⟩

end Store.BuildsOnly

namespace Registry

open Wiring.Action (Leads)

variable {depth : Nat} {chosen : Constructor H}

theorem invoke_builds (hmem : r ∈ registry.toList) (hr : P r)
    (hchosen : policy.choose? r.constructors = some chosen) (args : List (Option (Instance H))) :
    Leads (Store.BuildsOnly registry policy P) (chosen.invoke args) := by
  intro s
  obtain ⟨result, t, hcalls, hinvoke⟩ := chosen.invoke_calls args s
  rw [hinvoke]
  cases result <;> exact .of_calls hmem hr (.construct hchosen) hcalls

theorem apply_builds {adapter : Adapter H} (hmem : r ∈ registry.toList) (hr : P r)
    (hadapter : r.adapter = some adapter) (object : Instance H) :
    Leads (Store.BuildsOnly registry policy P) (adapter.apply object) := by
  intro s
  obtain ⟨result, t, hcalls, happly⟩ := adapter.apply_calls object s
  rw [happly]
  cases result <;> exact .of_calls hmem hr (.adapt hadapter) hcalls

theorem substitute_builds {parameter : Parameter H} (hmem : r ∈ registry.toList) (hr : P r)
    (hchosen : policy.choose? r.constructors = some chosen)
    (hparameter : parameter ∈ chosen.parameters) (hfind : registry.find? parameter.key = none) :
    Leads (Store.BuildsOnly registry policy P) parameter.substitute := by
  intro s
  rcases parameter.substitute_calls s with ⟨-, hnone⟩ | ⟨object, t, -, hcalls, hsome⟩
  · rw [hnone]
    exact refl_of _ s
  · rw [hsome]
    exact .of_calls hmem hr (.default hchosen hparameter hfind) hcalls

theorem supply_builds {evaluate : Registration H → Eval H (Instance H)} {parameter : Parameter H}
    (hmem : r ∈ registry.toList) (hr : P r)
    (hchosen : policy.choose? r.constructors = some chosen)
    (hparameter : parameter ∈ chosen.parameters)
    (hevaluate : ∀ d, registry.DependsOn policy r d →
      Leads (Store.BuildsOnly registry policy P) (evaluate d)) :
    Leads (Store.BuildsOnly registry policy P) (registry.supply evaluate parameter) := by
  unfold supply
  cases hfind : registry.find? parameter.key with
  | some d => exact (hevaluate d ⟨chosen, hchosen, parameter, hparameter, hfind⟩).map _
  | none => exact substitute_builds hmem hr hchosen hparameter hfind

theorem assemble_builds {evaluate : Registration H → Eval H (Instance H)}
    (hmem : r ∈ registry.toList) (hr : P r)
    (hevaluate : ∀ d, registry.DependsOn policy r d →
      Leads (Store.BuildsOnly registry policy P) (evaluate d)) :
    Leads (Store.BuildsOnly registry policy P) (registry.assemble policy evaluate r) := by
  unfold assemble
  cases hchosen : policy.choose? r.constructors with
  | none => exact .throw _
  | some chosen =>
      refine Leads.bind (.mapM fun parameter hparameter =>
        supply_builds hmem hr hchosen hparameter hevaluate) fun args => ?_
      refine (invoke_builds hmem hr hchosen args).bind fun object => ?_
      cases hadapter : r.adapter with
      | none => exact .pure _
      | some adapter => exact apply_builds hmem hr hadapter object

/-- Whatever the state of the cells, evaluation builds nothing but transients. -/
theorem evaluate_builds (hmem : r ∈ registry.toList)
    (hbelow : ∀ d, registry.Reaches policy r d → d.lifetime = .transient → P d) :
    Leads (Store.BuildsOnly registry policy P) (registry.evaluate policy depth r) := by
  induction depth generalizing r with
  | zero => exact .throw _
  | succ depth ih =>
      unfold evaluate
      cases hcell : r.cell? with
      | some cell =>
          refine .ofState fun s => ?_
          cases s.cells.get? cell with
          | some object => exact .pure _
          | none => exact .throw _
      | none =>
          refine assemble_builds hmem (hbelow r .refl ?_) fun d hd =>
            ih hd.mem_toList fun e he => hbelow e (.head hd he)
          cases hlifetime : r.lifetime with
          | transient => rfl
          | singleton =>
              rw [Registration.cell?_eq_some_iff.mpr ⟨hlifetime, rfl⟩] at hcell
              cases hcell

theorem fillOwn_builds (hmem : r ∈ registry.toList)
    (hbelow : ∀ d, registry.Reaches policy r d → P d) :
    Leads (Store.BuildsOnly registry policy P)
      (registry.fillOwn policy (registry.evaluate policy depth) r) := by
  unfold fillOwn
  cases r.cell? with
  | none => exact .pure _
  | some cell =>
      refine .ofState fun s => ?_
      cases s.cells.get? cell with
      | some object => exact .pure _
      | none =>
          refine (assemble_builds hmem (hbelow r .refl) fun d hd => ?_).bind fun object => ?_
          · exact evaluate_builds hd.mem_toList fun e he _ => hbelow e (.head hd he)
          · exact fun s => .of_journal_eq rfl

theorem fillAll_builds (hmem : r ∈ registry.toList)
    (hbelow : ∀ d, registry.Reaches policy r d → P d) :
    Leads (Store.BuildsOnly registry policy P) (registry.fillAll policy depth r) := by
  induction depth generalizing r with
  | zero => exact .throw _
  | succ depth ih =>
      unfold fillAll
      cases hchosen : policy.choose? r.constructors with
      | none => exact .throw _
      | some chosen =>
          refine Leads.bind (.forM fun parameter hparameter => ?_) fun _ =>
            fillOwn_builds hmem hbelow
          unfold visit
          cases hfind : registry.find? parameter.key with
          | none => exact .pure _
          | some d =>
              have hd : registry.DependsOn policy r d :=
                ⟨chosen, hchosen, parameter, hparameter, hfind⟩
              exact ih hd.mem_toList fun e he => hbelow e (.head hd he)

end Registry

end Wiring
