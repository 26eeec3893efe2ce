import Mathlib.Data.List.Basic
import Wiring.Program.Listing

/-!
Outlines: what the listing of a program shows of its instructions. Reading an outline's text from
the front, every part of it ends where the next one starts, as long as no label in it holds one of
the characters that set parts apart. So the outline can be read back from the text.
-/

namespace Wiring

variable {H : Host}

/-- An instruction without what a listing leaves out: constructors, parameters and adapters stand as
their labels, and slots without their services. -/
inductive Outline where
  | call (label : String) (args : List Outline)
  | load (slot : SlotId)
  | fill (slot : SlotId) (value : Outline)
  | default (kind : ParameterKind) (label : String)
  | adapt (target : String) (value : Outline)

namespace Outline

def outlining : Interpretation H Outline where
  call callee args := .call callee.label args
  load slot _ := .load slot
  fill slot _ value := .fill slot value
  default parameter := .default parameter.kind parameter.key.label
  adapt adapter value := .adapt adapter.target.name value

def callText (label : String) (args : List (List Char)) : List Char :=
  "new ".toList ++ (label.toList ++ '(' :: (", ".toList.intercalate args ++ [')']))

def loadText (slot : SlotId) : List Char :=
  "load ".toList ++ slot.label.toList

def fillText (slot : SlotId) (value : List Char) : List Char :=
  slot.label.toList ++ (" := once ".toList ++ value)

def defaultWord : ParameterKind → String
  | .reference => "none "
  | .value => "default "

def defaultText (kind : ParameterKind) (label : String) : List Char :=
  (defaultWord kind).toList ++ label.toList

def adaptText (target : String) (value : List Char) : List Char :=
  "cast<".toList ++ (target.toList ++ ('>' :: '(' :: (value ++ [')'])))

mutual

def text : Outline → List Char
  | .call label args => callText label (texts args)
  | .load slot => loadText slot
  | .fill slot value => fillText slot (text value)
  | .default kind label => defaultText kind label
  | .adapt target value => adaptText target (text value)

def texts : List Outline → List (List Char)
  | [] => []
  | outline :: rest => text outline :: texts rest

end

mutual

def labels : Outline → List String
  | .call label args => label :: labelsAll args
  | .load _ => []
  | .fill _ value => labels value
  | .default _ label => [label]
  | .adapt target value => target :: labels value

def labelsAll : List Outline → List String
  | [] => []
  | outline :: rest => labels outline ++ labelsAll rest

end

theorem texts_eq_map (outlines : List Outline) : texts outlines = outlines.map text := by
  induction outlines with
  | nil => rfl
  | cons outline rest ih => rw [texts, ih, List.map_cons]

theorem labelsAll_eq_flatMap (outlines : List Outline) :
    labelsAll outlines = outlines.flatMap labels := by
  induction outlines with
  | nil => rfl
  | cons outline rest ih => rw [labelsAll, ih, List.flatMap_cons]

end Outline

namespace Instruction

/-- What a listing shows of the instruction. -/
def outline (i : Instruction H) : Outline :=
  i.interpret Outline.outlining

theorem outline_call (callee : Constructor H) (args : List (Instruction H)) :
    (call callee args).outline = .call callee.label (args.map outline) := by
  rw [outline, interpret, interpretAll_eq_map]
  rfl

theorem outline_fill (slot : SlotId) (service : Key) (value : Instruction H) :
    (fill slot service value).outline = .fill slot value.outline :=
  rfl

theorem outline_adapt (adapter : Adapter H) (value : Instruction H) :
    (adapt adapter value).outline = .adapt adapter.target.name value.outline :=
  rfl

mutual

theorem toList_wording : ∀ i : Instruction H,
    (i.interpret Listing.wording).toList = i.outline.text
  | .call callee args => by
      rw [interpret, outline_call, Outline.text, Outline.texts_eq_map, ← toList_wordingAll args]
      simp only [Listing.wording, Outline.callText, String.toList_append, String.toList_intercalate,
        List.append_assoc]
      rfl
  | .load slot service => String.toList_append
  | .fill slot service value => by
      rw [interpret, outline_fill, Outline.text, ← toList_wording value]
      simp only [Listing.wording, Outline.fillText, String.toList_append, List.append_assoc]
  | .default parameter => by
      change (Listing.wording.default parameter).toList =
        Outline.defaultText parameter.kind parameter.key.label
      unfold Listing.wording Outline.defaultText Outline.defaultWord
      dsimp only
      cases parameter.kind with
      | reference => exact String.toList_append
      | value => exact String.toList_append
  | .adapt adapter value => by
      rw [interpret, outline_adapt, Outline.text, ← toList_wording value]
      simp only [Listing.wording, Outline.adaptText, String.toList_append, List.append_assoc]
      rfl

theorem toList_wordingAll : ∀ instructions : List (Instruction H),
    (interpretAll Listing.wording instructions).map String.toList =
      (instructions.map outline).map Outline.text
  | [] => rfl
  | instruction :: rest => by
      rw [interpretAll, List.map_cons, toList_wording instruction, toList_wordingAll rest]
      rfl

end

end Instruction

namespace Listing

/-- A character that sets parts of a listing apart. -/
def Separator (c : Char) : Prop :=
  c = '(' ∨ c = ')' ∨ c = ',' ∨ c = '\n'

instance : DecidablePred Separator :=
  fun c => inferInstanceAs (Decidable (c = '(' ∨ c = ')' ∨ c = ',' ∨ c = '\n'))

def Plain (label : String) : Prop :=
  ∀ c ∈ label.toList, ¬ Separator c

instance (label : String) : Decidable (Plain label) :=
  List.decidableBAll (fun c => ¬ Separator c) label.toList

/-- The text is over, or goes on with a separator. -/
def Breaks (rest : List Char) : Prop :=
  ∀ c ∈ rest.head?, Separator c

theorem breaks_cons {c : Char} (hc : Separator c) (rest : List Char) : Breaks (c :: rest) := by
  rintro _ ⟨⟩
  exact hc

/-- In front of texts that may follow them, the two can be told apart. -/
def Apart {α : Type} (text : α → List Char) (follows : List Char → Prop) (a b : α) : Prop :=
  ∀ r s, follows r → follows s → text a ++ r = text b ++ s → a = b ∧ r = s

variable {r s : List Char}

theorem word_append_inj {stops : Char → Prop} {v w : List Char} (hv : ∀ c ∈ v, ¬ stops c)
    (hw : ∀ c ∈ w, ¬ stops c) (hr : ∀ c ∈ r.head?, stops c) (hs : ∀ c ∈ s.head?, stops c)
    (h : v ++ r = w ++ s) : v = w ∧ r = s := by
  induction v generalizing w with
  | nil =>
      cases w with
      | nil => exact ⟨rfl, h⟩
      | cons d w =>
          obtain rfl : r = d :: (w ++ s) := h
          exact absurd (hr d rfl) (hw d List.mem_cons_self)
  | cons c v ih =>
      cases w with
      | nil =>
          obtain rfl : c :: (v ++ r) = s := h
          exact absurd (hs c rfl) (hv c List.mem_cons_self)
      | cons d w =>
          obtain ⟨rfl, hrest⟩ := List.cons.inj h
          obtain ⟨rfl, hrs⟩ := ih (fun c hc => hv c (List.mem_cons_of_mem _ hc))
            (fun c hc => hw c (List.mem_cons_of_mem _ hc)) hrest
          exact ⟨rfl, hrs⟩

theorem Plain.append_inj {a b : String} (ha : Plain a) (hb : Plain b) (hr : Breaks r)
    (hs : Breaks s) (h : a.toList ++ r = b.toList ++ s) : a = b ∧ r = s := by
  obtain ⟨hword, hrest⟩ := word_append_inj ha hb hr hs h
  exact ⟨String.toList_injective hword, hrest⟩

theorem Plain.closed_append_inj {a b : String} {c : Char} (hc : ¬ Separator c) (ha : Plain a)
    (hb : Plain b) (h : a.toList ++ c :: '(' :: r = b.toList ++ c :: '(' :: s) : a = b ∧ r = s := by
  have hword {t : String} (ht : Plain t) : ∀ d ∈ t.toList ++ [c], ¬ Separator d :=
    List.forall_mem_append.mpr ⟨ht, List.forall_mem_singleton.mpr hc⟩
  have hopen : ∀ rest, Breaks ('(' :: rest) := breaks_cons (by decide)
  rw [List.append_cons, List.append_cons b.toList] at h
  obtain ⟨hsame, hrest⟩ := word_append_inj (hword ha) (hword hb) (hopen r) (hopen s) h
  exact ⟨String.toList_injective (List.append_cancel_right hsame), (List.cons.inj hrest).2⟩

theorem follows_flatMap {α : Type} {text : α → List Char} {follows : List Char → Prop} {c : Char}
    {lead : List Char} (hlead : ∀ rest, follows (c :: rest)) (hr : follows r) (parts : List α) :
    follows ((parts.flatMap fun a => c :: (lead ++ text a)) ++ r) := by
  cases parts with
  | nil => exact hr
  | cons part parts => exact hlead _

/-- Parts in a row, each behind a lead, can be told apart if what follows the last one does not
start like a lead. -/
theorem flatMap_append_inj {α : Type} {text : α → List Char} {follows : List Char → Prop} {c : Char}
    {lead : List Char} (hlead : ∀ rest, follows (c :: rest)) {as bs : List α}
    (hapart : ∀ a ∈ as, ∀ b ∈ bs, Apart text follows a b) (hr : follows r) (hs : follows s)
    (hrc : r.head? ≠ some c) (hsc : s.head? ≠ some c)
    (h : (as.flatMap fun a => c :: (lead ++ text a)) ++ r =
      (bs.flatMap fun b => c :: (lead ++ text b)) ++ s) : as = bs ∧ r = s := by
  induction as generalizing bs with
  | nil =>
      cases bs with
      | nil => exact ⟨rfl, h⟩
      | cons b bs =>
          rw [List.flatMap_nil, List.nil_append, List.flatMap_cons] at h
          rw [h] at hrc
          exact absurd rfl hrc
  | cons a as ih =>
      cases bs with
      | nil =>
          rw [List.flatMap_nil, List.nil_append, List.flatMap_cons] at h
          rw [← h] at hsc
          exact absurd rfl hsc
      | cons b bs =>
          simp only [List.flatMap_cons, List.append_assoc, List.cons_append, List.cons.injEq,
            true_and, List.append_cancel_left_eq] at h
          obtain ⟨rfl, htail⟩ := hapart a List.mem_cons_self b List.mem_cons_self _ _
            (follows_flatMap hlead hr as) (follows_flatMap hlead hs bs) h
          obtain ⟨rfl, hrest⟩ := ih (fun a ha b hb =>
            hapart a (List.mem_cons_of_mem _ ha) b (List.mem_cons_of_mem _ hb)) htail
          exact ⟨rfl, hrest⟩

end Listing

theorem SlotId.toList_label (i : SlotId) :
    i.label.toList = "slot[".toList ++ ((toString i.val.toNat).toList ++ [']']) := by
  rw [label, String.toList_append, String.toList_append, List.append_assoc]
  rfl

theorem SlotId.label_append_inj {i j : SlotId} {r s : List Char}
    (h : i.label.toList ++ r = j.label.toList ++ s) : i = j ∧ r = s := by
  have hdigits (n : Nat) : ∀ c ∈ (toString n).toList, ¬ (c.isDigit = false) := by
    intro c hc
    rw [Nat.toString_eq_ofList_toDigits, String.toList_ofList] at hc
    simp [Nat.isDigit_of_mem_toDigits (by decide) (by decide) hc]
  have hclose (rest : List Char) : ∀ c ∈ (']' :: rest).head?, c.isDigit = false := by
    rintro _ ⟨⟩
    decide
  -- Both numbers end at their brackets, and a number is read back from its digits.
  simp only [toList_label, List.append_assoc, List.append_cancel_left_eq] at h
  obtain ⟨hnumber, hrest⟩ := Listing.word_append_inj (hdigits _) (hdigits _) (hclose r) (hclose s) h
  refine ⟨?_, (List.cons.inj hrest).2⟩
  have hdigits : Nat.toDigits 10 i.val.toNat = Nat.toDigits 10 j.val.toNat := by
    simpa [Nat.toString_eq_ofList_toDigits] using hnumber
  have hval : i.val.toNat = j.val.toNat := by
    rw [← Nat.ofDigitChars_ten_toDigits (n := i.val.toNat), hdigits, Nat.ofDigitChars_ten_toDigits]
  cases i
  cases j
  exact congrArg SlotId.mk (UInt32.toNat_inj.mp hval)

namespace Outline

open Listing

variable {a b : Outline} {r s : List Char}

protected def Plain (o : Outline) : Prop :=
  ∀ label ∈ o.labels, Listing.Plain label

theorem plain_call_iff {label : String} {args : List Outline} :
    (call label args).Plain ↔ Listing.Plain label ∧ ∀ arg ∈ args, arg.Plain := by
  simp only [Outline.Plain, labels, labelsAll_eq_flatMap, List.forall_mem_cons, List.mem_flatMap]
  exact and_congr_right fun _ => ⟨fun h arg harg l hl => h l ⟨arg, harg, hl⟩,
    fun h l ⟨arg, harg, hl⟩ => h arg harg l hl⟩

theorem plain_fill_iff {slot : SlotId} {value : Outline} :
    (fill slot value).Plain ↔ value.Plain :=
  Iff.rfl

theorem plain_adapt_iff {target : String} {value : Outline} :
    (adapt target value).Plain ↔ Listing.Plain target ∧ value.Plain :=
  List.forall_mem_cons

def initials : Outline → List Char
  | .call _ _ => ['n', 'e']
  | .load _ => ['l', 'o']
  | .fill _ _ => ['s', 'l']
  | .default .reference _ => ['n', 'o']
  | .default .value _ => ['d', 'e']
  | .adapt _ _ => ['c', 'a']

theorem take_text_append (o : Outline) (rest : List Char) :
    (o.text ++ rest).take 2 = o.initials := by
  cases o with
  | call => rfl
  | load => rfl
  | fill =>
      rw [text, fillText, SlotId.toList_label]
      rfl
  | default kind => cases kind <;> rfl
  | adapt => rfl

/-- The two are built by the same constructor, and defaults are of the same kind. -/
inductive SameForm : Outline → Outline → Prop where
  | call {label label' : String} {args args' : List Outline} :
      SameForm (call label args) (call label' args')
  | load {slot slot' : SlotId} : SameForm (load slot) (load slot')
  | fill {slot slot' : SlotId} {value value' : Outline} :
      SameForm (fill slot value) (fill slot' value')
  | default {kind : ParameterKind} {label label' : String} :
      SameForm (default kind label) (default kind label')
  | adapt {target target' : String} {value value' : Outline} :
      SameForm (adapt target value) (adapt target' value')

theorem sameForm_of_text (h : a.text ++ r = b.text ++ s) : SameForm a b := by
  have hinitials : a.initials = b.initials := by
    rw [← take_text_append a r, h, take_text_append]
  cases a
  case default kind label =>
    cases b
    case default kind' label' =>
      cases kind <;> cases kind' <;> first | exact .default | cases hinitials
    all_goals cases kind <;> cases hinitials
  all_goals
    cases b
    case default kind _ => cases kind <;> cases hinitials
    all_goals first | constructor | cases hinitials

theorem text_append_ne_close (o : Outline) : o.text ++ r ≠ ')' :: s := by
  intro h
  have htake := take_text_append o r
  rw [h] at htake
  cases o with
  | default kind => cases kind <;> cases htake
  | _ => cases htake

theorem intercalate_cons (separator text : List Char) (texts : List (List Char)) :
    separator.intercalate (text :: texts) = text ++ texts.flatMap (separator ++ ·) := by
  induction texts generalizing text with
  | nil => simp
  | cons next texts ih => rw [List.intercalate_cons_cons, ih, List.flatMap_cons, List.append_assoc,
      List.append_assoc]

theorem args_append_inj {as bs : List Outline}
    (hapart : ∀ a ∈ as, ∀ b ∈ bs, Apart text Breaks a b)
    (h : ", ".toList.intercalate (as.map text) ++ ')' :: r =
      ", ".toList.intercalate (bs.map text) ++ ')' :: s) : as = bs ∧ r = s := by
  have hcomma : ∀ rest, Breaks (',' :: rest) := breaks_cons (by decide)
  have hclose : ∀ rest, Breaks (')' :: rest) := breaks_cons (by decide)
  cases as with
  | nil =>
      cases bs with
      | nil => exact ⟨rfl, (List.cons.inj h).2⟩
      | cons b bs =>
          rw [List.map_cons, intercalate_cons, List.append_assoc] at h
          exact absurd h.symm b.text_append_ne_close
  | cons a as =>
      cases bs with
      | nil =>
          rw [List.map_cons, intercalate_cons, List.append_assoc] at h
          exact absurd h a.text_append_ne_close
      | cons b bs =>
          rw [List.map_cons, List.map_cons, intercalate_cons, intercalate_cons, List.append_assoc,
            List.append_assoc, List.flatMap_map, List.flatMap_map] at h
          obtain ⟨rfl, hrest⟩ := hapart a List.mem_cons_self b List.mem_cons_self _ _
            (follows_flatMap hcomma (hclose r) as) (follows_flatMap hcomma (hclose s) bs) h
          obtain ⟨rfl, hrs⟩ := flatMap_append_inj hcomma (fun a ha b hb =>
            hapart a (List.mem_cons_of_mem _ ha) b (List.mem_cons_of_mem _ hb)) (hclose r)
            (hclose s) (by simp) (by simp) hrest
          exact ⟨rfl, (List.cons.inj hrs).2⟩

section

variable {label label' target target' : String} {args args' : List Outline} {slot slot' : SlotId}
  {kind : ParameterKind} {value value' : Outline}

theorem call_apart (hlabel : Listing.Plain label) (hlabel' : Listing.Plain label')
    (hargs : ∀ arg ∈ args, ∀ arg' ∈ args', Apart text Breaks arg arg') :
    Apart text Breaks (call label args) (call label' args') := by
  intro r s hr hs h
  have hopen : ∀ rest, Breaks ('(' :: rest) := breaks_cons (by decide)
  simp only [text, callText, texts_eq_map, List.append_assoc, List.cons_append,
    List.nil_append] at h
  obtain ⟨rfl, hrest⟩ := hlabel.append_inj hlabel' (hopen _) (hopen _) (List.append_cancel_left h)
  obtain ⟨rfl, hrs⟩ := args_append_inj hargs (List.cons.inj hrest).2
  exact ⟨rfl, hrs⟩

theorem load_apart : Apart text Breaks (load slot) (load slot') := by
  intro r s hr hs h
  simp only [text, loadText, List.append_assoc] at h
  obtain ⟨rfl, hrs⟩ := SlotId.label_append_inj (List.append_cancel_left h)
  exact ⟨rfl, hrs⟩

/-- Nothing closes the text of a value that fills a slot but what follows the whole line. -/
theorem fill_apart (hvalue : Apart text Breaks value value') :
    Apart text Breaks (fill slot value) (fill slot' value') := by
  intro r s hr hs h
  simp only [text, fillText, List.append_assoc] at h
  obtain ⟨rfl, hrest⟩ := SlotId.label_append_inj h
  obtain ⟨rfl, hrs⟩ := hvalue r s hr hs (List.append_cancel_left hrest)
  exact ⟨rfl, hrs⟩

theorem default_apart (hlabel : Listing.Plain label) (hlabel' : Listing.Plain label') :
    Apart text Breaks (default kind label) (default kind label') := by
  intro r s hr hs h
  simp only [text, defaultText, List.append_assoc] at h
  obtain ⟨rfl, hrs⟩ := hlabel.append_inj hlabel' hr hs (List.append_cancel_left h)
  exact ⟨rfl, hrs⟩

theorem adapt_apart (htarget : Listing.Plain target) (htarget' : Listing.Plain target')
    (hvalue : Apart text Breaks value value') :
    Apart text Breaks (adapt target value) (adapt target' value') := by
  intro r s hr hs h
  have hclose : ∀ rest, Breaks (')' :: rest) := breaks_cons (by decide)
  simp only [text, adaptText, List.append_assoc, List.cons_append, List.nil_append] at h
  obtain ⟨rfl, hrest⟩ :=
    htarget.closed_append_inj (by decide) htarget' (List.append_cancel_left h)
  obtain ⟨rfl, hrs⟩ := hvalue _ _ (hclose r) (hclose s) hrest
  exact ⟨rfl, (List.cons.inj hrs).2⟩

end

mutual

theorem apart : ∀ a b : Outline, a.Plain → b.Plain → Apart text Breaks a b
  | .call label args, b, ha, hb, r, s, hr, hs, h => by
      cases sameForm_of_text h
      obtain ⟨hlabel, hargs⟩ := plain_call_iff.mp ha
      obtain ⟨hlabel', hargs'⟩ := plain_call_iff.mp hb
      refine call_apart hlabel hlabel' (fun arg harg arg' harg' => ?_) r s hr hs h
      exact apartAll args hargs arg harg arg' (hargs' arg' harg')
  | .load slot, b, ha, hb, r, s, hr, hs, h => by
      cases sameForm_of_text h
      exact load_apart r s hr hs h
  | .fill slot value, b, ha, hb, r, s, hr, hs, h => by
      cases sameForm_of_text h
      have hvalue := apart value _ (plain_fill_iff.mp ha) (plain_fill_iff.mp hb)
      exact fill_apart hvalue r s hr hs h
  | .default kind label, b, ha, hb, r, s, hr, hs, h => by
      cases sameForm_of_text h
      exact default_apart (ha _ List.mem_cons_self) (hb _ List.mem_cons_self) r s hr hs h
  | .adapt target value, b, ha, hb, r, s, hr, hs, h => by
      cases sameForm_of_text h
      obtain ⟨htarget, hvalue⟩ := plain_adapt_iff.mp ha
      obtain ⟨htarget', hvalue'⟩ := plain_adapt_iff.mp hb
      exact adapt_apart htarget htarget' (apart value _ hvalue hvalue') r s hr hs h

theorem apartAll : ∀ as : List Outline, (∀ a ∈ as, a.Plain) → ∀ a ∈ as, ∀ b : Outline, b.Plain →
    Apart text Breaks a b
  | [], _, _, ha, _, _ => nomatch ha
  | a :: as, hplain, o, ho, b, hb => by
      obtain ⟨hhead, hrest⟩ := List.forall_mem_cons.mp hplain
      obtain heq | ho := List.mem_cons.mp ho
      · exact heq ▸ apart a b hhead hb
      · exact apartAll as hrest o ho b hb

end

end Outline

end Wiring
