import Wiring.Proofs.Survey.Derivation

/-!
Plans and their layouts. A survey refers to the nodes that it appends by words, which repeat once
there are more nodes than words. A layout is the same arena with positions in place of words: which
child was planned for which parameter, and which node stands where, is a matter of the layout. Every
plan is the image of a layout, and refers to what the layout refers to exactly if it has no more
nodes than there are words.
-/

namespace Wiring

variable {H : Host}

/-- A node that refers to other nodes by their positions. -/
structure Place (H : Host) where
  provenance : Provenance H
  args : List Nat
  slot : Option Nat

/-- The node with its references cut down to words. -/
def Place.node (p : Place H) : Node H :=
  ⟨p.provenance, p.args.map .ofIndex, p.slot.map .ofIndex⟩

/-- An arena of any size. -/
structure Layout (H : Host) where
  places : Array (Place H)
  owners : Array Nat
  planned : Std.TreeMap Key Nat Key.cmp

namespace Layout

def empty : Layout H :=
  ⟨#[], #[], ∅⟩

def append (l : Layout H) (provenance : Provenance H) (args : List Nat) (lifetime : Lifetime) :
    Layout H :=
  match lifetime with
  | .singleton =>
    { l with
      places := l.places.push ⟨provenance, args, some l.owners.size⟩
      owners := l.owners.push l.places.size }
  | .transient => { l with places := l.places.push ⟨provenance, args, none⟩ }

def known? (l : Layout H) (r : Registration H) : Option Nat :=
  match r.lifetime with
  | .singleton => l.planned[r.key]?
  | .transient => none

def remember (l : Layout H) (r : Registration H) (position : Nat) : Layout H :=
  match r.lifetime with
  | .singleton => { l with planned := l.planned.insert r.key position }
  | .transient => l

@[simp] theorem remember_places (l : Layout H) (r : Registration H) (position : Nat) :
    (l.remember r position).places = l.places := by
  unfold remember
  cases r.lifetime <;> rfl

theorem size_append (l : Layout H) (provenance : Provenance H) (args : List Nat)
    (lifetime : Lifetime) :
    (l.append provenance args lifetime).places.size = l.places.size + 1 := by
  cases lifetime <;> simp [append]

/-- The survey has the arena and the memory of the layout, in words. -/
structure Denotes (l : Layout H) (s : Survey H) : Prop where
  nodes : s.nodes = l.places.map Place.node
  slots : s.slots = l.owners.map .ofIndex
  planned : ∀ key : Key, s.planned[key]? = l.planned[key]?.map .ofIndex

namespace Denotes

variable {l : Layout H} {s : Survey H}

theorem size (h : l.Denotes s) : s.nodes.size = l.places.size := by
  rw [h.nodes, Array.size_map]

theorem known? (h : l.Denotes s) (r : Registration H) :
    s.known? r = (l.known? r).map .ofIndex := by
  unfold Survey.known? Layout.known?
  cases r.lifetime with
  | singleton => exact h.planned r.key
  | transient => rfl

theorem append (h : l.Denotes s) (provenance : Provenance H) (args : List Nat)
    (lifetime : Lifetime) :
    (s.append provenance (args.map .ofIndex) lifetime).1 = .ofIndex l.places.size ∧
      (l.append provenance args lifetime).Denotes
        (s.append provenance (args.map .ofIndex) lifetime).2 := by
  cases lifetime with
  | singleton =>
      refine ⟨congrArg NodeId.ofIndex h.size, ?_, ?_, h.planned⟩
      · simp [Survey.append, Layout.append, Place.node, h.nodes, h.slots]
      · simp [Survey.append, Layout.append, h.slots, h.nodes]
  | transient =>
      refine ⟨congrArg NodeId.ofIndex h.size, ?_, h.slots, h.planned⟩
      simp [Survey.append, Layout.append, Place.node, h.nodes]

theorem remember (h : l.Denotes s) (r : Registration H) (position : Nat) :
    (l.remember r position).Denotes (s.remember r (.ofIndex position)) := by
  unfold Survey.remember Layout.remember
  cases r.lifetime with
  | singleton =>
      refine ⟨h.nodes, h.slots, fun key => ?_⟩
      simp only [Std.TreeMap.getElem?_insert]
      split
      · rfl
      · exact h.planned key
  | transient => exact h

end Denotes

end Layout

/-- How errands lay out nodes: `Laid registry options errand l positions m` says that the errand
turns the layout `l` into `m`, where what was asked for stands at these positions. -/
inductive Laid (registry : Registry H) (options : Options) :
    Errand H → Layout H → List Nat → Layout H → Prop
  | known {r : Registration H} {l : Layout H} {position : Nat}
      (hknown : l.known? r = some position) :
      Laid registry options (.registration r) l [position] l
  | fresh {r : Registration H} {l mid : Layout H} {chosen : Constructor H} {args : List Nat}
      (hknown : l.known? r = none)
      (hchosen : options.constructorPolicy.choose? r.constructors = some chosen)
      (hargs : Laid registry options (.parameters r chosen.parameters) l args mid) :
      Laid registry options (.registration r) l [mid.places.size]
        ((mid.append (.constructed r chosen) args r.lifetime).remember r mid.places.size)
  | nil {parent : Registration H} {l : Layout H} :
      Laid registry options (.parameters parent []) l [] l
  | registered {parent d : Registration H} {parameter : Parameter H} {rest : List (Parameter H)}
      {l mid m : Layout H} {positions others : List Nat}
      (hfind : registry.find? parameter.key = some d)
      (hd : Laid registry options (.registration d) l positions mid)
      (hrest : Laid registry options (.parameters parent rest) mid others m) :
      Laid registry options (.parameters parent (parameter :: rest)) l (positions ++ others) m
  | missing {parent : Registration H} {parameter : Parameter H} {rest : List (Parameter H)}
      {l m : Layout H} {others : List Nat}
      (hfind : registry.find? parameter.key = none)
      (hpolicy : options.missingDependency = .substitute)
      (hrest : Laid registry options (.parameters parent rest)
        (l.append (.defaulted parameter) [] .transient) others m) :
      Laid registry options (.parameters parent (parameter :: rest)) l
        ([l.places.size] ++ others) m

/-- A survey does in words what its layout does in positions, whether or not the words suffice. -/
theorem Surveyed.exists_laid {registry : Registry H} {options : Options} {errand : Errand H}
    {s t : Survey H} {ids : List NodeId} (h : Surveyed registry options errand s ids t)
    {l : Layout H} (hl : l.Denotes s) :
    ∃ positions m, Laid registry options errand l positions m ∧ m.Denotes t ∧
      ids = positions.map .ofIndex := by
  induction h generalizing l with
  | @known r s id hknown =>
      rw [hl.known?, Option.map_eq_some_iff] at hknown
      obtain ⟨position, hposition, rfl⟩ := hknown
      exact ⟨[position], l, .known hposition, hl, rfl⟩
  | @fresh r s mid chosen args hknown hinside hchosen hargs ih =>
      obtain ⟨positions, m, hlaid, hm, rfl⟩ := ih (l := l) ⟨hl.nodes, hl.slots, hl.planned⟩
      obtain ⟨hid, happended⟩ := hm.append (.constructed r chosen) positions r.lifetime
      rw [hl.known?, Option.map_eq_none_iff] at hknown
      rw [hid]
      have hascended : (m.append (.constructed r chosen) positions r.lifetime).Denotes
          (mid.append (.constructed r chosen) (positions.map .ofIndex) r.lifetime).2.ascend :=
        ⟨happended.nodes, happended.slots, happended.planned⟩
      exact ⟨_, _, .fresh hknown hchosen hlaid, hascended.remember r _, rfl⟩
  | nil => exact ⟨[], l, .nil, hl, rfl⟩
  | registered hfind hd hrest ihd ihrest =>
      obtain ⟨positions, mid, hlaid, hmid, rfl⟩ := ihd hl
      obtain ⟨others, m, hlaidRest, hm, rfl⟩ := ihrest hmid
      exact ⟨positions ++ others, m, .registered hfind hlaid hlaidRest, hm,
        List.map_append.symm⟩
  | @missing parent parameter rest s t others hfind hpolicy hrest ih =>
      have hnoted : l.Denotes (Planner.noteDefault s parent parameter) :=
        ⟨hl.nodes, hl.slots, hl.planned⟩
      obtain ⟨hid, happended⟩ := hnoted.append (.defaulted parameter) [] .transient
      obtain ⟨positions, m, hlaid, hm, rfl⟩ := ih happended
      refine ⟨[l.places.size] ++ positions, m, .missing hfind hpolicy hlaid, hm, ?_⟩
      rw [List.map_append]
      exact congrArg (fun id => [id] ++ _) hid

/-- Everything in a layout refers to what stands before it, and singletons and slots belong
together. -/
structure Layout.Ordered (l : Layout H) : Prop where
  args_lt : ∀ (i : Nat) (p : Place H), l.places[i]? = some p → ∀ arg ∈ p.args, arg < i
  slot_lt : ∀ (i : Nat) (p : Place H), l.places[i]? = some p →
    ∀ slot, p.slot = some slot → slot < l.owners.size
  owner_lt : ∀ (slot i : Nat), l.owners[slot]? = some i → i < l.places.size
  planned_lt : ∀ (key : Key) (i : Nat), l.planned[key]? = some i → i < l.places.size
  owners_le : l.owners.size ≤ l.places.size

namespace Layout.Ordered

variable {l : Layout H}

theorem empty : (Layout.empty (H := H)).Ordered where
  args_lt := by simp [Layout.empty]
  slot_lt := by simp [Layout.empty]
  owner_lt := by simp [Layout.empty]
  planned_lt := by simp [Layout.empty]
  owners_le := Nat.le_refl _

theorem append (h : l.Ordered) {provenance : Provenance H} {args : List Nat}
    (hargs : ∀ arg ∈ args, arg < l.places.size) (lifetime : Lifetime) :
    (l.append provenance args lifetime).Ordered := by
  have hpushed {p : Place H} (hp : p.args = args) (i : Nat) (q : Place H)
      (hq : (l.places.push p)[i]? = some q) : ∀ arg ∈ q.args, arg < i := by
    rw [Array.getElem?_push] at hq
    split at hq
    · next heq =>
      cases hq
      exact heq ▸ hp ▸ hargs
    · exact h.args_lt i q hq
  cases lifetime with
  | singleton =>
      refine ⟨hpushed rfl, ?_, ?_, ?_, ?_⟩
      · intro i p hp slot hslot
        simp only [Layout.append, Array.getElem?_push, Array.size_push] at hp ⊢
        split at hp
        · cases hp
          cases hslot
          exact Nat.lt_succ_self _
        · exact Nat.lt_succ_of_lt (h.slot_lt i p hp slot hslot)
      · intro slot i hi
        simp only [Layout.append, Array.getElem?_push, Array.size_push] at hi ⊢
        split at hi
        · cases hi
          exact Nat.lt_succ_self _
        · exact Nat.lt_succ_of_lt (h.owner_lt slot i hi)
      · intro key i hi
        rw [Layout.size_append]
        exact Nat.lt_succ_of_lt (h.planned_lt key i hi)
      · simp only [Layout.append, Array.size_push]
        exact Nat.succ_le_succ h.owners_le
  | transient =>
      refine ⟨hpushed rfl, ?_, ?_, ?_, ?_⟩
      · intro i p hp slot hslot
        simp only [Layout.append, Array.getElem?_push] at hp
        split at hp
        · cases hp
          cases hslot
        · exact h.slot_lt i p hp slot hslot
      · intro slot i hi
        rw [Layout.size_append]
        exact Nat.lt_succ_of_lt (h.owner_lt slot i hi)
      · intro key i hi
        rw [Layout.size_append]
        exact Nat.lt_succ_of_lt (h.planned_lt key i hi)
      · rw [Layout.size_append]
        exact Nat.le_succ_of_le h.owners_le

theorem remember (h : l.Ordered) (r : Registration H) {position : Nat}
    (hposition : position < l.places.size) : (l.remember r position).Ordered := by
  unfold Layout.remember
  cases r.lifetime with
  | singleton =>
      refine ⟨h.args_lt, h.slot_lt, h.owner_lt, fun key i hi => ?_, h.owners_le⟩
      simp only [Std.TreeMap.getElem?_insert] at hi
      split at hi
      · cases hi
        exact hposition
      · exact h.planned_lt key i hi
  | transient => exact h

end Layout.Ordered

namespace Laid

variable {registry : Registry H} {options : Options} {errand : Errand H} {l m : Layout H}
  {positions : List Nat}

theorem size_le (h : Laid registry options errand l positions m) :
    l.places.size ≤ m.places.size := by
  induction h with
  | known => exact Nat.le_refl _
  | fresh _ _ _ ih =>
      rw [Layout.remember_places, Layout.size_append]
      exact Nat.le_succ_of_le ih
  | nil => exact Nat.le_refl _
  | registered _ _ _ ihd ihrest => exact Nat.le_trans ihd ihrest
  | missing _ _ _ ih =>
      rw [Layout.size_append] at ih
      exact Nat.le_of_succ_le ih

theorem ordered (h : Laid registry options errand l positions m) (hl : l.Ordered) :
    m.Ordered ∧ ∀ position ∈ positions, position < m.places.size := by
  induction h with
  | @known r l position hknown =>
      refine ⟨hl, List.forall_mem_singleton.mpr ?_⟩
      unfold Layout.known? at hknown
      cases hlifetime : r.lifetime with
      | singleton =>
          rw [hlifetime] at hknown
          exact hl.planned_lt _ _ hknown
      | transient =>
          rw [hlifetime] at hknown
          cases hknown
  | @fresh r l mid chosen args hknown hchosen hargs ih =>
      obtain ⟨hmid, hbelow⟩ := ih hl
      have hnew : mid.places.size <
          (mid.append (.constructed r chosen) args r.lifetime).places.size := by
        rw [Layout.size_append]
        exact Nat.lt_succ_self _
      refine ⟨(hmid.append hbelow r.lifetime).remember r hnew, List.forall_mem_singleton.mpr ?_⟩
      rw [Layout.remember_places]
      exact hnew
  | nil => exact ⟨hl, List.forall_mem_nil _⟩
  | registered hfind hd hrest ihd ihrest =>
      obtain ⟨hmid, hpositions⟩ := ihd hl
      obtain ⟨hm, hothers⟩ := ihrest hmid
      refine ⟨hm, List.forall_mem_append.mpr ⟨fun position hposition => ?_, hothers⟩⟩
      exact Nat.lt_of_lt_of_le (hpositions position hposition) hrest.size_le
  | missing hfind hpolicy hrest ih =>
      obtain ⟨hm, hothers⟩ := ih (hl.append (List.forall_mem_nil _) .transient)
      refine ⟨hm, List.forall_mem_append.mpr ⟨List.forall_mem_singleton.mpr ?_, hothers⟩⟩
      have hsize := hrest.size_le
      rw [Layout.size_append] at hsize
      exact hsize

end Laid

/-- The numbers in the plan are the positions in the layout. -/
structure Plan.Faithful (p : Plan H) (l : Layout H) : Prop where
  ids_apart : ∀ i j, i < p.nodes.size → j < p.nodes.size →
    NodeId.ofIndex i = NodeId.ofIndex j → i = j
  root_last : p.root.index + 1 = p.nodes.size
  nodes : ∀ (i : Nat) (place : Place H), l.places[i]? = some place →
    ∃ n, p.nodes[i]? = some n ∧ n.provenance = place.provenance ∧
      n.args.map NodeId.index = place.args ∧ n.slot.map SlotId.index = place.slot
  slots : ∀ slot : Nat, p.slots[slot]?.map NodeId.index = l.owners[slot]?

/-- The plan of a registration is the image of a layout whose last node stands for the
registration. -/
structure Plan.LaidOut (p : Plan H) (registry : Registry H) (options : Options)
    (r : Registration H) (l : Layout H) : Prop where
  laid : Laid registry options (.registration r) .empty [l.places.size - 1] l
  ordered : l.Ordered
  nonempty : 0 < l.places.size
  nodes : p.nodes = l.places.map Place.node
  root : p.root = .ofIndex (l.places.size - 1)
  slots : p.slots = l.owners.map .ofIndex

namespace Plan.LaidOut

variable {p : Plan H} {registry : Registry H} {options : Options} {r : Registration H}
  {l : Layout H}

theorem size (h : p.LaidOut registry options r l) : p.nodes.size = l.places.size := by
  rw [h.nodes, Array.size_map]

theorem map_index_ofIndex {positions : List Nat} (h : ∀ i ∈ positions, i < UInt32.size) :
    (positions.map NodeId.ofIndex).map NodeId.index = positions := by
  rw [List.map_map]
  calc positions.map (NodeId.index ∘ NodeId.ofIndex)
      = positions.map id := List.map_congr_left fun i hi => NodeId.index_ofIndex (h i hi)
    _ = positions := List.map_id _

/-- The numbers are right as long as there are enough of them, and no longer. -/
theorem faithful_iff (h : p.LaidOut registry options r l) :
    p.Faithful l ↔ p.nodes.size ≤ UInt32.size := by
  constructor
  · intro hfaithful
    have hlast := hfaithful.root_last
    have hword : p.root.index < UInt32.size := p.root.val.toNat_lt
    omega
  · intro hfits
    have hplaces : l.places.size ≤ UInt32.size := h.size ▸ hfits
    refine ⟨?_, ?_, ?_, ?_⟩
    · intro i j hi hj heq
      have hindex := congrArg NodeId.index heq
      rwa [NodeId.index_ofIndex (Nat.lt_of_lt_of_le hi hfits),
        NodeId.index_ofIndex (Nat.lt_of_lt_of_le hj hfits)] at hindex
    · have hnonempty := h.nonempty
      rw [h.root, NodeId.index_ofIndex (by omega), h.size]
      omega
    · intro i place hplace
      have hi : i < l.places.size := (Array.getElem?_eq_some_iff.mp hplace).1
      refine ⟨place.node, by rw [h.nodes, Array.getElem?_map, hplace]; rfl, rfl, ?_, ?_⟩
      · refine map_index_ofIndex fun arg harg => ?_
        have := h.ordered.args_lt i place hplace arg harg
        omega
      · cases hslot : place.slot with
        | none => simp [Place.node, hslot]
        | some slot =>
            have := h.ordered.slot_lt i place hplace slot hslot
            have := h.ordered.owners_le
            simp [Place.node, hslot, SlotId.index_ofIndex (show slot < UInt32.size by omega)]
    · intro slot
      rw [h.slots, Array.getElem?_map, Option.map_map]
      cases howner : l.owners[slot]? with
      | none => rfl
      | some i =>
          have := h.ordered.owner_lt slot i howner
          simp [NodeId.index_ofIndex (show i < UInt32.size by omega)]

end Plan.LaidOut

theorem Registry.exists_layout_of_plan {registry : Registry H} {options : Options} {root : Key}
    {p : Plan H} (hplan : (registry.plan options root).result = .ok p) :
    ∃ r l, registry.find? root = some r ∧ p.LaidOut registry options r l := by
  cases hroot : registry.find? root with
  | none =>
      rw [plan_of_find?_eq_none hroot] at hplan
      cases hplan
  | some r =>
      obtain ⟨id, t, hplanned, hindex, rfl⟩ := (plan_eq_ok_iff hroot).mp hplan
      have hempty : (Layout.empty (H := H)).Denotes Survey.start := by
        constructor <;> simp [Layout.empty, Survey.start]
      obtain ⟨positions, l, hlaid, hl, hids⟩ :=
        (Surveyed.of_planRegistration hplanned).exists_laid hempty
      obtain ⟨hordered, hbelow⟩ := hlaid.ordered .empty
      -- Nothing is known at the start, so that the root is planned afresh and stands last.
      obtain ⟨hnonempty, rfl⟩ : 0 < l.places.size ∧ positions = [l.places.size - 1] := by
        cases hlaid with
        | known hknown =>
            unfold Layout.known? at hknown
            cases hlifetime : r.lifetime <;> simp [hlifetime, Layout.empty] at hknown
        | fresh => simp [Layout.size_append]
      exact ⟨r, l, rfl, hlaid, hordered, hnonempty, hl.nodes, by simpa using hids, hl.slots⟩

end Wiring
