import Wiring.Proofs.Plan.WellFormed
import Wiring.Proofs.Program.Outline

namespace Wiring

/-- A program without what its listing leaves out. -/
structure ProgramOutline where
  root : String
  lifetime : Lifetime
  slots : List String
  initializer : List Outline
  entry : Outline

/-- What a listing shows of the program. -/
def Program.outline {H : Host} (p : Program H) : ProgramOutline where
  root := p.root.label
  lifetime := p.lifetime
  slots := p.slots.toList.map fun binding => binding.service.label
  initializer := p.initializer.map Instruction.outline
  entry := p.entry.outline

namespace Listing

variable {α : Type} {text : α → List Char} {heading : String} {first : Char} {as bs : List α}
  {r s : List Char}

def lineText (text : α → List Char) (line : α) : List Char :=
  text line ++ ['\n']

def blockText (text : α → List Char) (heading : String) (lines : List α) : List Char :=
  if lines.isEmpty then []
  else heading.toList ++ (":\n".toList ++
    lines.flatMap fun line => ' ' :: ([' '] ++ lineText text line))

theorem toList_block {lines : List String} (h : lines.map String.toList = as.map text) :
    (block heading lines).toList = blockText text heading as := by
  have hempty : lines.isEmpty = as.isEmpty := by
    rw [← List.isEmpty_map (f := String.toList), h, List.isEmpty_map]
  have hlines : (lines.flatMap fun line => ' ' :: ([' '] ++ (line.toList ++ ['\n']))) =
      as.flatMap fun a => ' ' :: ([' '] ++ lineText text a) := by
    rw [← List.flatMap_map String.toList fun line => ' ' :: ([' '] ++ (line ++ ['\n'])), h,
      List.flatMap_map]
    rfl
  unfold block blockText
  rw [hempty, ← hlines]
  split
  next => rfl
  next => simp [String.toList_join, List.flatMap_map]

/-- The text is over, or starts neither like a line nor like the heading of this block. -/
def Leaves (first : Char) (rest : List Char) : Prop :=
  ∀ c ∈ rest.head?, c ≠ ' ' ∧ c ≠ first

theorem blockText_cons (a : α) (as : List α) : blockText text heading (a :: as) =
    heading.toList ++ (":\n".toList ++
      (a :: as).flatMap fun line => ' ' :: ([' '] ++ lineText text line)) :=
  rfl

theorem head?_blockText_cons (hfirst : heading.toList.head? = some first) (a : α) (as : List α)
    (rest : List Char) : (blockText text heading (a :: as) ++ rest).head? = some first := by
  rw [blockText_cons, List.append_assoc, List.head?_append, hfirst]
  rfl

theorem leaves_blockText {c : Char} (hhead : heading.toList.head? = some c) (hline : c ≠ ' ')
    (hfirst : c ≠ first) (hr : Leaves first r) : Leaves first (blockText text heading as ++ r) := by
  cases as with
  | nil => exact hr
  | cons a as =>
      intro d hd
      rw [head?_blockText_cons hhead] at hd
      obtain rfl := Option.some.inj hd
      exact ⟨hline, hfirst⟩

theorem lines_append_inj (hapart : ∀ a ∈ as, ∀ b ∈ bs, Apart text Breaks a b)
    (hr : r.head? ≠ some ' ') (hs : s.head? ≠ some ' ')
    (h : (as.flatMap fun a => ' ' :: ([' '] ++ lineText text a)) ++ r =
      (bs.flatMap fun b => ' ' :: ([' '] ++ lineText text b)) ++ s) : as = bs ∧ r = s := by
  have hnewline : ∀ rest, Breaks ('\n' :: rest) := breaks_cons (by decide)
  have hlines : ∀ a ∈ as, ∀ b ∈ bs, Apart (lineText text) (fun _ => True) a b := by
    intro a ha b hb r s _ _ hline
    rw [lineText, lineText, List.append_assoc, List.append_assoc] at hline
    obtain ⟨rfl, hrest⟩ := hapart a ha b hb _ _ (hnewline r) (hnewline s) hline
    exact ⟨rfl, (List.cons.inj hrest).2⟩
  exact flatMap_append_inj (fun _ => trivial) hlines trivial trivial hr hs h

theorem blockText_append_inj (hfirst : heading.toList.head? = some first)
    (hapart : ∀ a ∈ as, ∀ b ∈ bs, Apart text Breaks a b) (hr : Leaves first r)
    (hs : Leaves first s)
    (h : blockText text heading as ++ r = blockText text heading bs ++ s) : as = bs ∧ r = s := by
  cases as with
  | nil =>
      cases bs with
      | nil => exact ⟨rfl, h⟩
      | cons b bs =>
          have hhead : (blockText text heading (b :: bs) ++ s).head? = some first :=
            head?_blockText_cons hfirst b bs s
          rw [← h] at hhead
          exact absurd rfl (hr first hhead).2
  | cons a as =>
      cases bs with
      | nil =>
          have hhead : (blockText text heading (a :: as) ++ r).head? = some first :=
            head?_blockText_cons hfirst a as r
          rw [h] at hhead
          exact absurd rfl (hs first hhead).2
      | cons b bs =>
          simp only [blockText_cons, List.append_assoc] at h
          exact lines_append_inj hapart (fun hline => (hr _ hline).1 rfl)
            (fun hline => (hs _ hline).1 rfl)
            (List.append_cancel_left (List.append_cancel_left h))

def slotText (line : SlotId × String) : List Char :=
  line.1.label.toList ++ (' ' :: line.2.toList)

def slotLines (labels : List String) : List (SlotId × String) :=
  labels.mapIdx fun i label => (.ofIndex i, label)

theorem map_snd_slotLines (labels : List String) : (slotLines labels).map Prod.snd = labels := by
  apply List.ext_getElem <;> simp [slotLines]

theorem slotText_apart {a b : SlotId × String} (ha : Plain a.2) (hb : Plain b.2) :
    Apart slotText Breaks a b := by
  intro r s hr hs h
  rw [slotText, slotText, List.append_assoc, List.append_assoc] at h
  obtain ⟨hslot, hrest⟩ := SlotId.label_append_inj h
  obtain ⟨hlabel, hrs⟩ := ha.append_inj hb hr hs (List.cons.inj hrest).2
  exact ⟨Prod.ext hslot hlabel, hrs⟩

end Listing

namespace ProgramOutline

open Listing

def labels (o : ProgramOutline) : List String :=
  o.root :: (o.slots ++ (o.initializer.flatMap Outline.labels ++ o.entry.labels))

protected def Plain (o : ProgramOutline) : Prop :=
  ∀ label ∈ o.labels, Listing.Plain label

instance (o : ProgramOutline) : Decidable o.Plain :=
  List.decidableBAll Listing.Plain o.labels

def text (o : ProgramOutline) : List Char :=
  "factory ".toList ++ (o.root.toList ++ (' ' :: '(' :: (o.lifetime.label.toList ++ (')' :: '\n' ::
    (blockText slotText "slots" (slotLines o.slots) ++
      (blockText Outline.text "init" o.initializer ++
        blockText Outline.text "entry" [o.entry]))))))

theorem plain_label (l : Lifetime) : Listing.Plain l.label := by
  cases l <;> decide

theorem lifetime_label_inj {a b : Lifetime} (h : a.label = b.label) : a = b := by
  cases a <;> cases b <;> first | rfl | exact absurd h (by decide)

variable {a b : ProgramOutline}

theorem Plain.slots (h : a.Plain) : ∀ line ∈ slotLines a.slots, Listing.Plain line.2 := by
  intro line hline
  have hslot : line.2 ∈ a.slots := by
    rw [← map_snd_slotLines a.slots]
    exact List.mem_map_of_mem hline
  exact h _ (List.mem_cons_of_mem _ (List.mem_append_left _ hslot))

theorem Plain.initializer (h : a.Plain) : ∀ o ∈ a.initializer, o.Plain := by
  intro o ho label hlabel
  refine h label (List.mem_cons_of_mem _ (List.mem_append_right _ (List.mem_append_left _ ?_)))
  exact List.mem_flatMap.mpr ⟨o, ho, hlabel⟩

theorem Plain.entry (h : a.Plain) : a.entry.Plain := fun _ hlabel =>
  h _ (List.mem_cons_of_mem _ (List.mem_append_right _ (List.mem_append_right _ hlabel)))

/-- The blocks of a listing start with different letters, so each is seen to be there or not. -/
theorem blocks_inj (ha : a.Plain) (hb : b.Plain)
    (h : blockText slotText "slots" (slotLines a.slots) ++
        (blockText Outline.text "init" a.initializer ++ blockText Outline.text "entry" [a.entry]) =
      blockText slotText "slots" (slotLines b.slots) ++
        (blockText Outline.text "init" b.initializer ++ blockText Outline.text "entry" [b.entry])) :
    a.slots = b.slots ∧ a.initializer = b.initializer ∧ a.entry = b.entry := by
  have hover (first : Char) : Leaves first [] := nofun
  have hentry (first : Char) (hfirst : 'e' ≠ first) (o : Outline) :
      Leaves first (blockText Outline.text "entry" [o]) :=
    List.append_nil (blockText Outline.text "entry" [o]) ▸
      leaves_blockText rfl (by decide) hfirst (hover first)
  have hinit (o : ProgramOutline) : Leaves 's'
      (blockText Outline.text "init" o.initializer ++ blockText Outline.text "entry" [o.entry]) :=
    leaves_blockText rfl (by decide) (by decide) (hentry 's' (by decide) o.entry)
  have hentries : ∀ l ∈ [a.entry], ∀ m ∈ [b.entry], Apart Outline.text Breaks l m := by
    simpa using Outline.apart _ _ ha.entry hb.entry
  obtain ⟨hslots, h⟩ := blockText_append_inj rfl
    (fun l hl m hm => slotText_apart (ha.slots l hl) (hb.slots m hm)) (hinit a) (hinit b) h
  obtain ⟨hinitializer, h⟩ := blockText_append_inj rfl
    (fun l hl m hm => Outline.apart l m (ha.initializer l hl) (hb.initializer m hm))
    (hentry 'i' (by decide) _) (hentry 'i' (by decide) _) h
  obtain ⟨hlines, -⟩ := blockText_append_inj rfl hentries (hover 'e') (hover 'e')
    (congrArg (· ++ []) h)
  refine ⟨?_, hinitializer, (List.cons.inj hlines).1⟩
  rw [← map_snd_slotLines a.slots, hslots, map_snd_slotLines]

theorem text_inj (ha : a.Plain) (hb : b.Plain) (h : a.text = b.text) : a = b := by
  have hclose : ∀ rest, Breaks (')' :: rest) := breaks_cons (by decide)
  obtain ⟨hroot, hrest⟩ := Listing.Plain.closed_append_inj (by decide)
    (ha _ List.mem_cons_self) (hb _ List.mem_cons_self) (List.append_cancel_left h)
  obtain ⟨hlifetime, hblocks⟩ := (plain_label a.lifetime).append_inj (plain_label b.lifetime)
    (hclose _) (hclose _) hrest
  obtain ⟨hslots, hinitializer, hentry⟩ := blocks_inj ha hb (by simpa using hblocks)
  cases a
  cases b
  cases hroot
  cases hslots
  cases hinitializer
  cases hentry
  cases lifetime_label_inj hlifetime
  rfl

end ProgramOutline

namespace Program

variable {H : Host}

theorem toList_listing (p : Program H) : p.listing.toList = p.outline.text := by
  have hslots : (p.slots.toList.mapIdx fun i binding =>
      (SlotId.ofIndex i).label ++ " " ++ binding.service.label).map String.toList =
        (Listing.slotLines p.outline.slots).map Listing.slotText := by
    apply List.ext_getElem <;> simp [Listing.slotLines, Listing.slotText, outline]
  have hinit : (p.initializer.map (Instruction.interpret Listing.wording)).map String.toList =
      p.outline.initializer.map Outline.text := by
    simp [outline, Instruction.toList_wording]
  have hentry : [p.entry.interpret Listing.wording].map String.toList =
      [p.outline.entry].map Outline.text :=
    congrArg (fun line => [line]) p.entry.toList_wording
  simp only [listing, String.toList_append, List.append_assoc]
  rw [Listing.toList_block hslots, Listing.toList_block hinit, Listing.toList_block hentry]
  rfl

/-- Programs whose labels are plain have the same listing exactly if they have the same root,
lifetime, slots and instructions, up to what an outline leaves out. -/
theorem listing_eq_iff {K : Host} (p : Program H) (q : Program K) (hp : p.outline.Plain)
    (hq : q.outline.Plain) : p.listing = q.listing ↔ p.outline = q.outline := by
  rw [← String.toList_inj, toList_listing, toList_listing]
  exact ⟨ProgramOutline.text_inj hp hq, congrArg _⟩

end Program

namespace Sample

def program (service : Key) : Except Failure (Program host) :=
  (registry.plan {} service).result.bind Plan.program

theorem exists_plain_program {service : Key} {root : String}
    (h : ((program service).toOption.map fun p => (decide p.outline.Plain, p.outline.root)) =
      some (true, root)) :
    ∃ p, program service = .ok p ∧ p.outline.Plain ∧ p.outline.root = root := by
  cases hprogram : program service with
  | error failure =>
      rw [hprogram] at h
      cases h
  | ok p =>
      rw [hprogram] at h
      obtain ⟨hplain, hroot⟩ := Prod.mk.inj (Option.some.inj h)
      exact ⟨p, rfl, of_decide_eq_true hplain, hroot⟩

theorem vehicle_and_motor_listed : ∃ p q, program root = .ok p ∧ program (.ofType motor) = .ok q ∧
    p.outline.Plain ∧ q.outline.Plain ∧ p.listing ≠ q.listing := by
  obtain ⟨p, hp, hplain, hvehicle⟩ : ∃ p, program root = .ok p ∧ p.outline.Plain ∧
      p.outline.root = "Vehicle" := exists_plain_program (by decide +kernel)
  obtain ⟨q, hq, hplain', hmotor⟩ : ∃ q, program (.ofType motor) = .ok q ∧ q.outline.Plain ∧
      q.outline.root = "Motor" := exists_plain_program (by decide +kernel)
  refine ⟨p, q, hp, hq, hplain, hplain', fun hlisting => ?_⟩
  have houtline : p.outline = q.outline := (p.listing_eq_iff q hplain hplain').mp hlisting
  rw [houtline, hmotor] at hvehicle
  exact absurd hvehicle (by decide)

end Sample

end Wiring
