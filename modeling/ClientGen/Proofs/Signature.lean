import Mathlib.Data.List.Forall2
import Mathlib.Data.List.Perm.Basic
import ClientGen.Shape.Signature
import ClientGen.Proofs.Marks
import ClientGen.Proofs.Shape

/-! Signatures, read back. The order of members and enum values does not show in a signature; all else
that it is made of does, unless a text within it holds the mark that ends such a text. -/
namespace ClientGen
variable {s t : Shape} {o p : ObjectShape} {ps qs : List (String × Shape)} {r r' : List Char}

/-- The same structure, whatever the order of members and of enum values, the formats, and what is
required. -/
inductive Shape.Same : Shape → Shape → Prop
  | string {vs ws : List String} (f g : Option String) : vs.Perm ws → Same (.string vs f) (.string ws g)
  | integer (f g : Option String) : Same (.integer f) (.integer g)
  | number (f g : Option String) : Same (.number f) (.number g)
  | boolean : Same .boolean .boolean
  | array {s t : Shape} : Same s t → Same (.array s) (.array t)
  | object {o p : ObjectShape} {qs : List (String × Shape)} : qs.Perm p.properties →
    o.properties.map Prod.fst = qs.map Prod.fst →
    List.Forall₂ Same (o.properties.map Prod.snd) (qs.map Prod.snd) →
    Option.Rel Same o.additional p.additional → Same (.object o) (.object p)
  | reference (name : String) : Same (.reference name) (.reference name)
  | unknown : Same .unknown .unknown

/-- The same names in the same order, with the same structure under each. -/
def SameInOrder (ps qs : List (String × Shape)) : Prop :=
  ps.map Prod.fst = qs.map Prod.fst ∧ List.Forall₂ Shape.Same (ps.map Prod.snd) (qs.map Prod.snd)

/-- The same name and the same structure. -/
def SameMember (m n : String × Shape) : Prop := m.1 = n.1 ∧ m.2.Same n.2

theorem sameInOrder_iff : SameInOrder ps qs ↔ List.Forall₂ SameMember ps qs := by
  induction ps generalizing qs with
  | nil => cases qs <;> simp [SameInOrder]
  | cons m ps ih =>
    cases qs with
    | nil => simp [SameInOrder]
    | cons n qs =>
      rw [List.forall₂_cons, ← ih]
      simp only [SameInOrder, SameMember, List.map_cons, List.cons.injEq, List.forall₂_cons]
      exact and_and_and_comm

/-- The same property names, with the same structure under each. -/
def ObjectShape.SameMembers (o p : ObjectShape) : Prop :=
  ∃ qs : List (String × Shape), qs.Perm p.properties ∧ SameInOrder o.properties qs

/-! ### Sorted texts -/

theorem sortTexts_perm (texts : List String) : (sortTexts texts).Perm texts :=
  List.mergeSort_perm texts _

/-- Only the order is lost by sorting. -/
theorem sortTexts_eq_iff {xs ys : List String} : sortTexts xs = sortTexts ys ↔ xs.Perm ys := by
  constructor
  · intro h
    exact (sortTexts_perm xs).symm.trans (h ▸ sortTexts_perm ys)
  · intro h
    have sorted (zs : List String) : (sortTexts zs).Pairwise (· ≤ ·) := by
      simpa [sortTexts] using @List.pairwise_mergeSort String (fun a b => decide (a ≤ b))
        (by simpa using fun a b c => String.le_trans) (by simpa using String.le_total) zs
    refine List.Perm.eq_of_pairwise (fun a b _ _ => String.le_antisymm) (sorted xs) (sorted ys) ?_
    exact (sortTexts_perm xs).trans (h.trans (sortTexts_perm ys).symm)

theorem sortTexts_eq_nil {xs : List String} : sortTexts xs = [] ↔ xs = [] := by
  rw [← List.length_eq_zero_iff, (sortTexts_perm xs).length_eq, List.length_eq_zero_iff]

/-- A member as it is written. -/
def memberText (m : String × Shape) : String := m.1 ++ ":" ++ m.2.signature

theorem memberSignatures_eq (ps : List (String × Shape)) : memberSignatures ps = ps.map memberText := by
  induction ps with
  | nil => rfl
  | cons m ps ih => rw [memberSignatures, ih, List.map_cons, memberText]

/-- Members in the order of their texts. -/
def sortedMembers (ps : List (String × Shape)) : List (String × Shape) :=
  ps.mergeSort fun a b => memberText a ≤ memberText b

theorem sortedMembers_perm (ps : List (String × Shape)) : (sortedMembers ps).Perm ps :=
  List.mergeSort_perm ps _

theorem sortedMembers_eq_nil : sortedMembers ps = [] ↔ ps = [] := by
  rw [← List.length_eq_zero_iff, (sortedMembers_perm ps).length_eq, List.length_eq_zero_iff]

theorem sortTexts_memberSignatures (ps : List (String × Shape)) :
    sortTexts (memberSignatures ps) = (sortedMembers ps).map memberText := by
  rw [memberSignatures_eq, sortTexts, sortedMembers]
  exact (List.map_mergeSort (f := memberText) fun _ _ _ _ => rfl).symm

theorem map_memberText_eq (h : List.Forall₂ SameMember ps qs)
    (hsig : ∀ m ∈ ps, ∀ t, m.2.Same t → m.2.signature = t.signature) :
    ps.map memberText = qs.map memberText := by
  induction h with
  | nil => rfl
  | @cons m n ps qs hmn _ ih =>
    obtain ⟨hname, hsame⟩ := hmn
    obtain ⟨hm, hps⟩ := List.forall_mem_cons.mp hsig
    rw [List.map_cons, List.map_cons, ih hps, memberText, memberText, hname, hm n.2 hsame]

/-- The same members have the same texts, up to their order. -/
theorem memberSignatures_perm (h : o.SameMembers p)
    (hsig : ∀ m ∈ o.properties, ∀ t, m.2.Same t → m.2.signature = t.signature) :
    (memberSignatures o.properties).Perm (memberSignatures p.properties) := by
  obtain ⟨qs, hqs, hsame⟩ := h
  rw [memberSignatures_eq, memberSignatures_eq, map_memberText_eq (sameInOrder_iff.mp hsame) hsig]
  exact hqs.map memberText

/-- The order of members and of enum values, formats and required properties do not show. -/
theorem Shape.Same.signature_eq (h : s.Same t) : s.signature = t.signature := by
  induction s using Shape.induct generalizing t with
  | string values format =>
    cases h with
    | @string _ ws _ _ h =>
      cases values with
      | nil =>
        obtain rfl := List.nil_perm.mp h
        rfl
      | cons v vs =>
        cases ws with
        | nil => exact (List.cons_ne_nil v vs (List.perm_nil.mp h)).elim
        | cons w ws => rw [signature, signature, sortTexts_eq_iff.mpr h]
  | object o hp he =>
    cases h with
    | @object _ p qs hqs hname hshape hadd =>
      have members := memberSignatures_perm ⟨qs, hqs, hname, hshape⟩ fun m hm t ht => hp m hm ht
      obtain ⟨properties, required, additional⟩ := o
      obtain ⟨properties', required', additional'⟩ := p
      have extra : signatureOfAdditional additional = signatureOfAdditional additional' := by
        cases hadd with
        | none => rfl
        | some hs => rw [signatureOfAdditional, signatureOfAdditional, he _ rfl hs]
      rw [signature, signature, ObjectShape.signature, ObjectShape.signature,
        sortTexts_eq_iff.mpr members, extra]
  | array item ih =>
    cases h with
    | array h => rw [signature, signature, ih h]
  | _ =>
    cases h
    rfl

/-! ### Texts that end where they should -/

/-- What may follow a signature. -/
def endMarks : List Char := [',', '|', '>', '\x7d', '\x1f']

def avoids (marks : List Char) (text : String) : Bool := text.toList.all (· ∉ marks)

/-- A property name ends at its colon, and the first one is not taken for the end of the object. -/
def isDelimitedName (name : String) : Bool :=
  avoids [':'] name && !name.toList.head?.any (· ∈ ['|', '\x7d'])

mutual
/-- Whether no text within holds a mark that would end it. -/
def Shape.isDelimited : Shape → Bool
  | .string values _ => values.all (avoids ['|', ')'])
  | .array item => item.isDelimited
  | .object members => members.isDelimited
  | .reference name => avoids endMarks name
  | .integer _ => true
  | .number _ => true
  | .boolean => true
  | .unknown => true

def ObjectShape.isDelimited : ObjectShape → Bool
  | ⟨properties, _, additional⟩ => areDelimited properties && isDelimitedAdditional additional

def areDelimited : List (String × Shape) → Bool
  | [] => true
  | (name, shape) :: rest => isDelimitedName name && shape.isDelimited && areDelimited rest

def isDelimitedAdditional : Option Shape → Bool
  | none => true
  | some shape => shape.isDelimited
end

theorem areDelimited_eq (ps : List (String × Shape)) :
    areDelimited ps = ps.all fun m => isDelimitedName m.1 && m.2.isDelimited := by
  induction ps with
  | nil => rfl
  | cons m ps ih => rw [areDelimited, ih, List.all_cons]

theorem ObjectShape.isDelimited_iff : o.isDelimited ↔
    (∀ m ∈ o.properties, isDelimitedName m.1 ∧ m.2.isDelimited) ∧
      ∀ s ∈ o.additional, s.isDelimited := by
  obtain ⟨properties, required, additional⟩ := o
  cases additional <;> simp [ObjectShape.isDelimited, areDelimited_eq, isDelimitedAdditional]

theorem avoids_iff {marks : List Char} {text : String} :
    avoids marks text ↔ ∀ c ∈ text.toList, ¬c ∈ marks := by
  simp [avoids]

/-! ### Reading back -/

/-- What comes after a signature. -/
def Ended (r : List Char) : Prop := ∀ c ∈ r.head?, c ∈ endMarks

/-- The letter that a signature begins with. Each kind of shape has its own. -/
def Shape.letter : Shape → Char
  | .string [] _ => 's'
  | .string (_ :: _) _ => 'e'
  | .integer _ => 'i'
  | .number _ => 'n'
  | .boolean => 'b'
  | .array _ => 'a'
  | .object _ => 'o'
  | .reference _ => 'r'
  | .unknown => 'u'

theorem Shape.head?_signature (s : Shape) : s.signature.toList.head? = some s.letter := by
  cases s with
  | string values format => cases values <;> simp [signature, letter]
  | object o =>
    obtain ⟨properties, required, additional⟩ := o
    simp [signature, ObjectShape.signature, letter]
  | _ => simp [signature, letter]

theorem Shape.letter_eq (h : s.signature.toList ++ r = t.signature.toList ++ r') :
    s.letter = t.letter := by
  have head := congrArg List.head? h
  rw [List.head?_append, List.head?_append, s.head?_signature, t.head?_signature] at head
  exact Option.some.inj head

theorem enum_signature {v : String} {vs : List String} {f : Option String} :
    (Shape.string (v :: vs) f).signature.toList =
      "enum(".toList ++ (['|'].intercalate ((sortTexts (v :: vs)).map String.toList) ++ [')']) := by
  simp [Shape.signature, String.toList_intercalate]

theorem toList_memberText (m : String × Shape) :
    (memberText m).toList = m.1.toList ++ ':' :: m.2.signature.toList := by
  simp [memberText]

/-- The part of an object's signature that follows the members. -/
def additionalText (additional : Option Shape) : List Char :=
  (signatureOfAdditional additional).toList ++ ['\x7d']

theorem object_signature (o : ObjectShape) : (Shape.object o).signature.toList =
    "object\x7b".toList ++
      ([','].intercalate ((sortedMembers o.properties).map fun m => (memberText m).toList) ++
      additionalText o.additional) := by
  obtain ⟨properties, required, additional⟩ := o
  rw [Shape.signature, ObjectShape.signature, sortTexts_memberSignatures]
  simp [String.toList_intercalate, additionalText, Function.comp_def]

theorem additionalText_head (additional : Option Shape) :
    ∃ c l, additionalText additional = c :: l ∧ (c = '|' ∨ c = '\x7d') := by
  cases additional with
  | none => exact ⟨'\x7d', [], rfl, .inr rfl⟩
  | some s => exact ⟨'|', '*' :: ':' :: s.signature.toList ++ ['\x7d'],
      by simp [additionalText, signatureOfAdditional], .inl rfl⟩

/-- Whatever is written like the shape, and ended, is the same shape. -/
def Shape.ReadsBack (s : Shape) : Prop :=
  ∀ (t : Shape) (r r' : List Char), s.isDelimited → t.isDelimited → Ended r → Ended r' →
    s.signature.toList ++ r = t.signature.toList ++ r' → s.Same t ∧ r = r'

theorem readsBack_string (values : List String) (format : Option String) :
    (Shape.string values format).ReadsBack := by
  intro t r r' hs ht _ _ h
  have hletter := Shape.letter_eq h
  cases t with
  | string values' format' =>
    cases values with
    | nil =>
      cases values' with
      | nil => exact ⟨.string _ _ .nil, List.append_cancel_left h⟩
      | cons w ws => simp [Shape.letter] at hletter
    | cons v vs =>
      cases values' with
      | nil => simp [Shape.letter] at hletter
      | cons w ws =>
        simp only [enum_signature, List.append_assoc] at h
        have h := List.append_cancel_left h
        have unmarked {us : List String} (hu : us.all (avoids ['|', ')'])) :
            ∀ u ∈ sortTexts us, ∀ c ∈ u.toList, ¬c ∈ ['|', ')'] := fun u hmem =>
          avoids_iff.mp (List.all_eq_true.mp hu u ((sortTexts_perm us).mem_iff.mp hmem))
        obtain ⟨hsorted, hend⟩ := forall₂_of_intercalate (P := (· ∈ ['|', ')'])) (R := Eq)
          (by simp [sortTexts_eq_nil]) (by simp) (by simp) (by simp)
          (fun x hx y hy q q' hq hq' hxy =>
            (append_inj_of_marks (unmarked hs x hx) (unmarked ht y hy) hq hq' hxy).imp
              String.toList_inj.mp id) h
        rw [List.forall₂_eq_eq_eq] at hsorted
        exact ⟨.string _ _ (sortTexts_eq_iff.mp hsorted), (List.cons.inj hend).2⟩
  | _ => cases values <;> simp [Shape.letter] at hletter

/-- Members between separators. -/
theorem sameMembers_of_texts {c : Char} (hne : ps = [] ↔ qs = []) (hc : c ∈ endMarks)
    (hp : ∀ m ∈ ps, isDelimitedName m.1 ∧ m.2.isDelimited)
    (hq : ∀ m ∈ qs, isDelimitedName m.1 ∧ m.2.isDelimited)
    (hr : ∀ a ∈ r.head?, a ∈ endMarks ∧ a ≠ c) (hr' : ∀ a ∈ r'.head?, a ∈ endMarks ∧ a ≠ c)
    (back : ∀ m ∈ ps, m.2.ReadsBack)
    (h : [c].intercalate (ps.map fun m => (memberText m).toList) ++ r =
      [c].intercalate (qs.map fun m => (memberText m).toList) ++ r') :
    List.Forall₂ SameMember ps qs ∧ r = r' := by
  refine forall₂_of_intercalate (P := (· ∈ endMarks)) hne hc hr hr' ?_ h
  intro m hm n hn q q' hq1 hq2 hmn
  simp only [toList_memberText, List.append_assoc, List.cons_append] at hmn
  have unmarked {name : String} (hd : isDelimitedName name) : ':' ∉ name.toList := by
    simp only [isDelimitedName, Bool.and_eq_true] at hd
    exact fun hc => avoids_iff.mp hd.1 ':' hc (by simp)
  obtain ⟨hname, hshape⟩ := append_cons_inj (unmarked (hp m hm).1) (unmarked (hq n hn).1) hmn
  obtain ⟨hsame, hend⟩ := back m hm n.2 q q' (hp m hm).2 (hq n hn).2 hq1 hq2 hshape
  exact ⟨⟨String.toList_inj.mp hname, hsame⟩, hend⟩

/-- Members in any order, from members sorted by their texts. -/
theorem sameMembers_of_sorted
    (h : List.Forall₂ SameMember (sortedMembers o.properties) (sortedMembers p.properties)) :
    o.SameMembers p := by
  obtain ⟨qs, hsame, hperm⟩ := List.perm_comp_forall₂ (sortedMembers_perm o.properties).symm h
  exact ⟨qs, hperm.trans (sortedMembers_perm p.properties), sameInOrder_iff.mpr hsame⟩

theorem forall_mem_sortedMembers {P : String × Shape → Prop} (h : ∀ m ∈ ps, P m) :
    ∀ m ∈ sortedMembers ps, P m :=
  fun m hm => h m ((sortedMembers_perm ps).mem_iff.mp hm)

/-- Where an object ends or its additional properties begin, no member begins. -/
theorem eq_nil_of_additionalText {additional : Option Shape}
    (hp : ∀ m ∈ ps, isDelimitedName m.1 ∧ m.2.isDelimited)
    (h : additionalText additional ++ r' =
      [','].intercalate (ps.map fun m => (memberText m).toList) ++ r) :
    ps = [] := by
  cases ps with
  | nil => rfl
  | cons m ps =>
    obtain ⟨c, l, hl, hc⟩ := additionalText_head additional
    obtain ⟨rest, hrest⟩ : ∃ rest,
        [','].intercalate ((m :: ps).map fun m => (memberText m).toList) ++ r =
        m.1.toList ++ ':' :: rest := by
      cases ps <;> simp [toList_memberText, List.intercalate_cons_cons]
    rw [hl, hrest] at h
    have hname := (List.forall_mem_cons.mp hp).1.1
    cases hm : m.1.toList with
    | nil =>
      obtain rfl : c = ':' := by simpa [hm] using congrArg List.head? h
      simp at hc
    | cons a as =>
      obtain rfl : c = a := by simpa [hm] using congrArg List.head? h
      simp [isDelimitedName, hm] at hname
      tauto

theorem readsBack_additional {a b : Option Shape} (hback : ∀ s ∈ a, s.ReadsBack)
    (ha : ∀ s ∈ a, s.isDelimited)
    (hb : ∀ s ∈ b, s.isDelimited) (h : additionalText a ++ r = additionalText b ++ r') :
    Option.Rel Shape.Same a b ∧ r = r' := by
  cases a with
  | none =>
    cases b with
    | none => exact ⟨.none, List.append_cancel_left h⟩
    | some t => simp [additionalText, signatureOfAdditional] at h
  | some s =>
    cases b with
    | none => simp [additionalText, signatureOfAdditional] at h
    | some t =>
      simp only [additionalText, signatureOfAdditional, String.toList_append, List.append_assoc] at h
      have h := List.append_cancel_left h
      obtain ⟨hsame, hend⟩ := hback s rfl t _ _ (ha s rfl) (hb t rfl) (by simp [Ended, endMarks])
        (by simp [Ended, endMarks]) h
      exact ⟨.some hsame, (List.cons.inj hend).2⟩

theorem readsBack_object (hback : ∀ m ∈ o.properties, m.2.ReadsBack)
    (hadd : ∀ s ∈ o.additional, s.ReadsBack) : (Shape.object o).ReadsBack := by
  intro t r r' hs ht hr hr' h
  have hletter := Shape.letter_eq h
  cases t with
  | object p =>
    simp only [object_signature, List.append_assoc] at h
    have h := List.append_cancel_left h
    obtain ⟨ho, hoa⟩ := ObjectShape.isDelimited_iff.mp hs
    obtain ⟨hp, hpa⟩ := ObjectShape.isDelimited_iff.mp ht
    have ho := forall_mem_sortedMembers ho
    have hp := forall_mem_sortedMembers hp
    have hne : sortedMembers o.properties = [] ↔ sortedMembers p.properties = [] := by
      constructor <;> intro he
      · rw [he] at h
        exact eq_nil_of_additionalText hp h
      · rw [he] at h
        exact eq_nil_of_additionalText ho h.symm
    have tail (additional : Option Shape) (q : List Char) :
        ∀ a ∈ (additionalText additional ++ q).head?, a ∈ endMarks ∧ a ≠ ',' := by
      obtain ⟨c, l, hl, hc⟩ := additionalText_head additional
      rcases hc with rfl | rfl <;> simp [hl, endMarks]
    obtain ⟨hsame, hrest⟩ := sameMembers_of_texts hne (by simp [endMarks]) ho hp (tail _ _) (tail _ _)
      (forall_mem_sortedMembers hback) h
    obtain ⟨qs, hqs, hname, hshape⟩ := sameMembers_of_sorted hsame
    obtain ⟨hextra, hend⟩ := readsBack_additional hadd hoa hpa hrest
    exact ⟨.object hqs hname hshape hextra, hend⟩
  | string values _ => cases values <;> simp [Shape.letter] at hletter
  | _ => simp [Shape.letter] at hletter

/-- Shapes that are told by the first letter alone. -/
theorem readsBack_flat (h : ∀ t, s.letter = t.letter → s.Same t) : s.ReadsBack := by
  intro t r r' _ _ _ _ hst
  have hsame := h t (Shape.letter_eq hst)
  rw [hsame.signature_eq] at hst
  exact ⟨hsame, List.append_cancel_left hst⟩

/-- Signatures with nothing in them that ends early show all but the order of members and of enum
values. -/
theorem Shape.readsBack (s : Shape) : s.ReadsBack := by
  induction s using Shape.induct with
  | string values format => exact readsBack_string values format
  | integer format =>
    refine readsBack_flat fun t h => ?_
    cases t with
    | integer format' => exact .integer format format'
    | string values _ => cases values <;> simp [letter] at h
    | _ => simp [letter] at h
  | number format =>
    refine readsBack_flat fun t h => ?_
    cases t with
    | number format' => exact .number format format'
    | string values _ => cases values <;> simp [letter] at h
    | _ => simp [letter] at h
  | boolean =>
    refine readsBack_flat fun t h => ?_
    cases t with
    | boolean => exact .boolean
    | string values _ => cases values <;> simp [letter] at h
    | _ => simp [letter] at h
  | array item ih =>
    intro t r r' hs ht _ _ h
    have hletter := letter_eq h
    cases t with
    | array item' =>
      simp only [signature, String.toList_append, List.append_assoc] at h
      have h := List.append_cancel_left h
      obtain ⟨hsame, hend⟩ := ih item' _ _ hs ht (by simp [Ended, endMarks])
        (by simp [Ended, endMarks]) h
      exact ⟨.array hsame, List.append_cancel_left hend⟩
    | string values _ => cases values <;> simp [letter] at hletter
    | _ => simp [letter] at hletter
  | object o hp he => exact readsBack_object hp he
  | reference name =>
    intro t r r' hs ht hr hr' h
    have hletter := letter_eq h
    cases t with
    | reference name' =>
      simp only [signature, String.toList_append, List.append_assoc] at h
      have h := List.append_cancel_left h
      obtain ⟨hname, hend⟩ := append_inj_of_marks (avoids_iff.mp hs) (avoids_iff.mp ht) hr hr' h
      exact ⟨String.toList_inj.mp hname ▸ .reference name, hend⟩
    | string values _ => cases values <;> simp [letter] at hletter
    | _ => simp [letter] at hletter
  | unknown =>
    refine readsBack_flat fun t h => ?_
    cases t with
    | unknown => exact .unknown
    | string values _ => cases values <;> simp [letter] at h
    | _ => simp [letter] at h

end ClientGen
