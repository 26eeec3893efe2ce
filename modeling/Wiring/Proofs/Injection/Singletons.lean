import Wiring.Proofs.Injection.Activity

/-!
One instance per singleton, act by act. Ready-made instances stay in their cells and are never built,
no cell is filled twice, constructors receive what the cells of their singletons hold, and no
singleton is completed a second time.

The journal does not say which registration a call was made for, and several registrations may share
a constructor; so calls are ascribed to registrations in annals that accompany the journal.
-/

namespace Wiring

variable {H : Host}

/-- An entry of the journal, and the registration that it was made for, if it is a call of a
constructor or an adapter. -/
structure Record (H : Host) where
  entry : Entry H
  owner : Option (Registration H)

namespace Record

/-- The ascription is right: the call is one by which the owner is built, the owner was not
ready-made, and if the call completes a singleton then the instance is in its cell. -/
inductive Ascribed (registry : Registry H) (policy : ConstructorPolicy) (cells : Cells H) :
    Record H → Prop
  | silent {entry : Entry H} (hsilent : entry.call? = none) :
      Ascribed registry policy cells ⟨entry, none⟩
  | default {parameter : Parameter H} {object : Instance H} :
      Ascribed registry policy cells ⟨.call (.default parameter object), none⟩
  | build {call : Call H} {r : Registration H} (hmem : r ∈ registry.toList)
      (hgiven : r.givenInstance = none) (hcall : call.Builds registry policy cells r)
      (hfilled : ∀ object cell, call.Completes r object → r.cell? = some cell →
        cells.get? cell = some object) :
      Ascribed registry policy cells ⟨.call call, some r⟩

def Finishes (r : Registration H) (record : Record H) : Prop :=
  record.owner = some r ∧
    ∃ call object, record.entry = .call call ∧ call.Completes r object

end Record

/-- The journal with an owner for every call, such that no singleton is completed twice. -/
structure Annals (registry : Registry H) (policy : ConstructorPolicy) (cells : Cells H)
    (journal : Journal H) (records : List (Record H)) : Prop where
  entries : records.map Record.entry = journal.toList
  ascribed : ∀ record ∈ records, record.Ascribed registry policy cells
  once : ∀ r cell, Registration.cell? r = some cell →
    records.Pairwise fun record later => ¬ (record.Finishes r ∧ later.Finishes r)

/-- What is true of the store as long as services are only built by acts. -/
structure Store.Lawful (registry : Registry H) (policy : ConstructorPolicy) (s : Store H) :
    Prop where
  given : ∀ r ∈ registry.toList, ∀ object, r.givenInstance = some object →
    s.cells.get? r.sequence = some object
  once : (s.cells.filled.map Prod.fst).Nodup
  annals : ∃ records, Annals registry policy s.cells s.journal records

variable {registry : Registry H} {policy : ConstructorPolicy} {s t : Store H}

namespace Cells

theorem get?_eq_none_iff {c : Cells H} {cell : Nat} :
    c.get? cell = none ↔ cell ∉ c.filled.map Prod.fst := by
  unfold get?
  rw [List.lookup_eq_none_iff]
  simp only [List.mem_map, not_exists, not_and, Prod.forall, bne_iff_ne, ne_eq]
  constructor
  · rintro h other object hmem rfl
    exact h other object hmem rfl
  · rintro h other object hmem rfl
    exact h cell object hmem rfl

theorem get?_of_mem {c : Cells H} {cell : Nat} {object : Instance H}
    (hnodup : (c.filled.map Prod.fst).Nodup) (hmem : (cell, object) ∈ c.filled) :
    c.get? cell = some object := by
  obtain ⟨before, after, hsplit⟩ := List.append_of_mem hmem
  unfold get?
  rw [hsplit] at hnodup ⊢
  refine List.lookup_eq_some_iff.mpr ⟨before, after, rfl, ?_⟩
  intro entry hentry
  rw [List.map_append, List.nodup_append] at hnodup
  have hne := hnodup.2.2 entry.1 (List.mem_map_of_mem hentry) cell (by simp)
  simpa using Ne.symm hne

theorem mem_of_get? {c : Cells H} {cell : Nat} {object : Instance H}
    (h : c.get? cell = some object) : (cell, object) ∈ c.filled := by
  obtain ⟨before, after, hsplit, -⟩ := List.lookup_eq_some_iff.mp h
  rw [hsplit]
  exact List.mem_append_right _ (List.mem_cons_self ..)

theorem nodup_fill {c : Cells H} {cell : Nat} (object : Instance H)
    (hnodup : (c.filled.map Prod.fst).Nodup) (hempty : c.get? cell = none) :
    ((c.fill cell object).filled.map Prod.fst).Nodup := by
  have hnew := get?_eq_none_iff.mp hempty
  unfold fill
  rw [List.map_append, List.nodup_append]
  refine ⟨hnodup, by simp, ?_⟩
  rintro a ha b hb rfl
  simp only [List.map_cons, List.map_nil, List.mem_singleton] at hb
  exact hnew (hb ▸ ha)

end Cells

theorem Delivered.keep {c d : Cells H} {parameter : Parameter H} {value : Option (Instance H)}
    (h : Delivered registry c parameter value) (hkeeps : c.Keeps d) :
    Delivered registry d parameter value := by
  intro r hr cell hcell
  obtain ⟨object, hobject, hvalue⟩ := h r hr cell hcell
  exact ⟨object, hkeeps cell object hobject, hvalue⟩

theorem Call.Builds.keep {c d : Cells H} {r : Registration H} {call : Call H}
    (h : call.Builds registry policy c r) (hkeeps : c.Keeps d) :
    call.Builds registry policy d r := by
  cases h with
  | construct hchosen hargs => exact .construct hchosen (hargs.imp fun _ _ harg => harg.keep hkeeps)
  | adapt hadapter => exact .adapt hadapter

theorem Call.Completes.unique {r : Registration H} {call : Call H} {object found : Instance H}
    (hobject : call.Completes r object) (hfound : call.Completes r found) : object = found := by
  rcases call with ⟨callee, args, result⟩ | ⟨adapter, input, result⟩ | ⟨parameter, result⟩
  · cases result with
    | ok built => exact hobject.2.symm.trans hfound.2
    | error e => exact hobject.elim
  · cases result with
    | ok handle => exact hobject.symm.trans hfound
    | error e => exact hobject.elim
  · exact hobject.elim

namespace Record.Ascribed

theorem keep {c d : Cells H} {record : Record H} (h : record.Ascribed registry policy c)
    (hkeeps : c.Keeps d) : record.Ascribed registry policy d := by
  cases h with
  | silent hsilent => exact .silent hsilent
  | default => exact .default
  | build hmem hgiven hcall hfilled =>
      exact .build hmem hgiven (hcall.keep hkeeps) fun object cell hcompletes hcell =>
        hkeeps cell object (hfilled object cell hcompletes hcell)

theorem isSome_of_finishes {cells : Cells H} {record : Record H} {r : Registration H} {cell : Nat}
    (h : record.Ascribed registry policy cells) (hfinishes : record.Finishes r)
    (hcell : r.cell? = some cell) : (cells.get? cell).isSome := by
  obtain ⟨howner, call, object, hentry, hcompletes⟩ := hfinishes
  cases h with
  | silent hsilent => cases howner
  | default => cases howner
  | build hmem hgiven hcall hfilled =>
      cases howner
      cases hentry
      exact Option.isSome_iff_exists.mpr ⟨object, hfilled object cell hcompletes hcell⟩

end Record.Ascribed

namespace Annals

variable {c d : Cells H} {journal : Journal H} {records : List (Record H)}

theorem empty (c : Cells H) : Annals registry policy c #[] [] where
  entries := rfl
  ascribed := List.forall_mem_nil _
  once := fun _ _ _ => .nil

/-- Annals are continued by entries that complete no singleton whose cell is filled, and at most
one in all. -/
theorem append {later : Journal H} {more : List (Record H)}
    (h : Annals registry policy c journal records) (hkeeps : c.Keeps d)
    (hentries : later.toList = journal.toList ++ more.map Record.entry)
    (hascribed : ∀ record ∈ more, record.Ascribed registry policy d)
    (hempty : ∀ record ∈ more, ∀ r cell, r.cell? = some cell → record.Finishes r →
      c.get? cell = none)
    (honce : ∀ r, more.Pairwise fun record later => ¬ (record.Finishes r ∧ later.Finishes r)) :
    Annals registry policy d later (records ++ more) where
  entries := by rw [List.map_append, h.entries, hentries]
  ascribed := by
    intro record hrecord
    rcases List.mem_append.mp hrecord with hold | hnew
    · exact (h.ascribed record hold).keep hkeeps
    · exact hascribed record hnew
  once := by
    intro r cell hcell
    refine List.pairwise_append.mpr ⟨h.once r cell hcell, honce r, ?_⟩
    rintro record hold other hnew ⟨hbefore, hafter⟩
    have hfilled := (h.ascribed record hold).isSome_of_finishes hbefore hcell
    rw [hempty other hnew r cell hcell hafter] at hfilled
    cases hfilled

theorem silent {later : Journal H} (h : Annals registry policy c journal records)
    (hjournal : ∃ entries, (∀ entry ∈ entries, entry.call? = none) ∧
      later.toList = journal.toList ++ entries) :
    ∃ more, Annals registry policy c later (records ++ more) := by
  obtain ⟨entries, hsilent, hentries⟩ := hjournal
  have hnever : ∀ record ∈ entries.map (Record.mk · none), ∀ r, ¬ record.Finishes r := by
    rintro record hrecord r ⟨howner, -⟩
    obtain ⟨entry, -, rfl⟩ := List.mem_map.mp hrecord
    cases howner
  refine ⟨entries.map (Record.mk · none), h.append (.refl c) ?_ ?_ ?_ ?_⟩
  · rw [hentries, List.map_map]
    exact congrArg _ (List.map_id entries).symm
  · intro record hrecord
    obtain ⟨entry, hentry, rfl⟩ := List.mem_map.mp hrecord
    exact .silent (hsilent entry hentry)
  · exact fun record hrecord r cell _ hfinishes => absurd hfinishes (hnever record hrecord r)
  · intro r
    exact List.pairwise_of_forall_mem_list fun record hrecord later _ hboth =>
      hnever record hrecord r hboth.1

theorem single (record : Record H) (h : Annals registry policy c journal records)
    (hkeeps : c.Keeps d) (hascribed : record.Ascribed registry policy d)
    (hempty : ∀ r cell, r.cell? = some cell → record.Finishes r → c.get? cell = none) :
    Annals registry policy d (journal.push record.entry) (records ++ [record]) := by
  refine h.append hkeeps (by simp) ?_ ?_ fun _ => List.pairwise_singleton _ _
  · intro other hother
    exact List.mem_singleton.mp hother ▸ hascribed
  · intro other hother
    exact List.mem_singleton.mp hother ▸ hempty

theorem delivered (h : Annals registry policy c journal records) {callee : Constructor H}
    {args : List (Option (Instance H))} {result : Except Failure (Instance H)}
    (hmem : Entry.call (.construct callee args result) ∈ journal.toList) :
    List.Forall₂ (Delivered registry c) callee.parameters args := by
  rw [← h.entries] at hmem
  obtain ⟨record, hrecord, hentry⟩ := List.mem_map.mp hmem
  cases h.ascribed record hrecord with
  | silent hsilent =>
      dsimp only at hentry
      subst hentry
      cases hsilent
  | default => cases hentry
  | build _ _ hcall _ =>
      cases hentry
      cases hcall with
      | construct _ hargs => exact hargs

end Annals

namespace Store.Lawful

theorem given_keep (h : s.Lawful registry policy) (hkeeps : s.cells.Keeps t.cells) :
    ∀ r ∈ registry.toList, ∀ object, r.givenInstance = some object →
      t.cells.get? r.sequence = some object :=
  fun r hr object hobject => hkeeps _ _ (h.given r hr object hobject)

theorem silent (h : s.Lawful registry policy) (hcells : t.cells = s.cells)
    (hjournal : ∃ entries, (∀ entry ∈ entries, entry.call? = none) ∧
      t.journal.toList = s.journal.toList ++ entries) : t.Lawful registry policy := by
  obtain ⟨records, hrecords⟩ := h.annals
  obtain ⟨more, hmore⟩ := hrecords.silent hjournal
  exact ⟨hcells ▸ h.given, hcells ▸ h.once, _, hcells ▸ hmore⟩

theorem givenInstance_eq_none (h : s.Lawful registry policy) {r : Registration H}
    (hmem : r ∈ registry.toList)
    (hempty : ∀ cell, r.cell? = some cell → s.cells.get? cell = none) :
    r.givenInstance = none := by
  cases hgiven : r.givenInstance with
  | none => rfl
  | some object =>
      have hfilled := h.given r hmem object hgiven
      rw [hempty r.sequence (Registration.cell?_of_given hgiven)] at hfilled
      cases hfilled

theorem act (h : s.Lawful registry policy) (hact : Act registry policy s t) :
    t.Lawful registry policy := by
  obtain ⟨records, hrecords⟩ := h.annals
  have hgiven := h.given_keep hact.keeps
  cases hact with
  | chatter hchatter => exact h.silent hchatter.cells hchatter.journal
  | @default parameter object hfind =>
      refine ⟨hgiven, h.once, _, hrecords.single ⟨_, none⟩ (.refl _) .default ?_⟩
      rintro r cell - ⟨howner, -⟩
      cases howner
  | @work r call hmem hcall hopen =>
      have hnone := h.givenInstance_eq_none hmem fun cell hcell => (hopen cell hcell).1
      have hascribed : Record.Ascribed registry policy s.cells ⟨.call call, some r⟩ :=
        .build hmem hnone hcall fun object cell hcompletes hcell =>
          absurd hcompletes ((hopen cell hcell).2 object)
      refine ⟨hgiven, h.once, _, hrecords.single _ (.refl _) hascribed ?_⟩
      rintro other cell hcell ⟨howner, -⟩
      cases howner
      exact (hopen cell hcell).1
  | @complete r call cell object hmem hcall hcell hempty hbelow hcompletes =>
      have hown : ∀ other, r.cell? = some other → cell = other := by
        intro other hother
        rw [hcell, Option.some.injEq] at hother
        exact hother
      have hnone := h.givenInstance_eq_none hmem fun other hother => hown other hother ▸ hempty
      have hkeeps := Cells.keeps_fill s.cells cell object
      have hascribed : Record.Ascribed registry policy (s.cells.fill cell object)
          ⟨.call call, some r⟩ := by
        refine .build hmem hnone (hcall.keep hkeeps) fun found other hfound hother => ?_
        rw [hcompletes.unique hfound, ← hown other hother]
        exact Cells.get?_fill_self found hempty
      refine ⟨hgiven, Cells.nodup_fill object h.once hempty, _,
        hrecords.single _ hkeeps hascribed ?_⟩
      rintro r' other hother ⟨howner, -⟩
      cases howner
      exact hown other hother ▸ hempty

end Store.Lawful

end Wiring
