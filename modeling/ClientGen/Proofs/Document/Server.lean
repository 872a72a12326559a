import ClientGen.Document.Server
import ClientGen.Proofs.Document.Reference
import ClientGen.Proofs.Entries
import ClientGen.Proofs.Marks
import ClientGen.Proofs.Text

/-! The address of a server against a substitution of all its variables at once: where no default opens a
brace and no braces nest, replacing them one after another comes to the same, in any order. -/
namespace ClientGen

namespace Text
variable {values : Entries String String} {name value : String} {new front s t w : List Char} {c : Char}

/-- The variable whose placeholder starts the text, without braces in its name, and its value. -/
def placeholder? (values : Entries String String) (s : List Char) : Option (List Char × String) :=
  ((after? ['\x7b'] s).bind (cut? '\x7d')).bind fun (name, _) =>
    if '\x7b' ∈ name then none else (values.get? (String.ofList name)).map (name, ·)

/-- Scans once from the left; `skip` counts characters of a placeholder already replaced. -/
def substituteFrom (values : Entries String String) : Nat → List Char → List Char
  | _, [] => []
  | skip + 1, _ :: s => substituteFrom values skip s
  | 0, c :: s =>
    match placeholder? values (c :: s) with
    | some (name, value) => value.toList ++ substituteFrom values (name.length + 1) s
    | none => c :: substituteFrom values 0 s

/-- Every placeholder of a value becomes that value; what a value brings in is not looked at again. -/
def substitute (values : Entries String String) (s : List Char) : List Char := substituteFrom values 0 s

/-- Between two opening braces there is a closing one. -/
def Unnested (s : List Char) : Prop :=
  ∀ before between after, s = before ++ '\x7b' :: (between ++ '\x7b' :: after) → '\x7d' ∈ between

/-- Text read block by block: what is opened is closed before the next is opened, the last maybe never. -/
inductive Flat : List Char → Prop
  | nil : Flat []
  | char {c : Char} {s : List Char} (hc : c ≠ '\x7b') (hs : Flat s) : Flat (c :: s)
  | block {w s : List Char} (ho : '\x7b' ∉ w) (hc : '\x7d' ∉ w) (hs : Flat s) :
      Flat ('\x7b' :: (w ++ '\x7d' :: s))
  | unclosed {w : List Char} (ho : '\x7b' ∉ w) (hc : '\x7d' ∉ w) : Flat ('\x7b' :: w)

/-! ### Unnested text -/

theorem Unnested.of_append (front : List Char) (h : Unnested (front ++ s)) : Unnested s := by
  intro before between after hs
  exact h (front ++ before) between after (by rw [hs, List.append_assoc])

theorem Unnested.not_mem_of_opened (h : Unnested ('\x7b' :: (w ++ s))) (hc : '\x7d' ∉ w) : '\x7b' ∉ w := by
  intro ho
  obtain ⟨between, after, rfl⟩ := List.append_of_mem ho
  have hb : '\x7d' ∈ between := h [] between (after ++ s) (by simp)
  exact hc (List.mem_append_left _ hb)

/-- It suffices to look from each opening brace to the next. -/
theorem unnested_cons_iff : Unnested (c :: s) ↔
    (c = '\x7b' → (cut? '\x7b' s).all fun cut => '\x7d' ∈ cut.1) ∧ Unnested s := by
  constructor
  · intro h
    refine ⟨?_, h.of_append [c]⟩
    rintro rfl
    simp only [Option.all_eq_true, decide_eq_true_eq]
    intro ⟨between, after⟩ hcut
    exact h [] between after (by rw [(cut?_eq_some.mp hcut).1, List.nil_append])
  · intro ⟨hnext, hs⟩ before between after hb
    cases before with
    | cons b before => exact hs before between after (List.cons.inj hb).2
    | nil =>
      obtain ⟨hc, rfl⟩ := List.cons.inj hb
      obtain ⟨a, b, hab, ha⟩ := List.eq_append_cons_of_mem
        (show '\x7b' ∈ between ++ ['\x7b'] by simp)
      have hcut : cut? '\x7b' (between ++ '\x7b' :: after) = some (a, b ++ after) := by
        refine cut?_eq_some.mpr ⟨?_, ha⟩
        simpa using congrArg (· ++ after) hab
      have hmem : '\x7d' ∈ a := by simpa [hcut] using hnext hc
      have : '\x7d' ∈ between ++ ['\x7b'] := hab ▸ List.mem_append_left _ hmem
      simpa using this

instance Unnested.decidable : (s : List Char) → Decidable (Unnested s)
  | [] => .isTrue (by intro before between after h; simp at h)
  | _ :: s =>
    have := Unnested.decidable s
    decidable_of_iff _ unnested_cons_iff.symm

theorem Unnested.flat {s : List Char} (h : Unnested s) : Flat s := by
  match s with
  | [] => exact .nil
  | c :: s =>
    by_cases hc : c = '\x7b'
    · subst hc
      by_cases hclosed : '\x7d' ∈ s
      · obtain ⟨w, rest, hs, hw⟩ := List.eq_append_cons_of_mem hclosed
        have ho : '\x7b' ∉ w := Unnested.not_mem_of_opened (hs ▸ h) hw
        have hrest : Unnested rest :=
          Unnested.of_append ('\x7b' :: (w ++ ['\x7d'])) (by simpa [hs] using h)
        have hlt : rest.length < s.length := by simp [hs]; omega
        rw [hs]
        exact .block ho hw hrest.flat
      · exact .unclosed (Unnested.not_mem_of_opened (s := []) (by simpa using h) hclosed) hclosed
    · exact .char hc (h.of_append [c]).flat
termination_by s.length

theorem Flat.append (hf : '\x7b' ∉ front) (hs : Flat s) : Flat (front ++ s) := by
  induction front with
  | nil => exact hs
  | cons c front ih =>
    rw [List.mem_cons, not_or] at hf
    exact .char (Ne.symm hf.1) (ih hf.2)

/-! ### One replacement -/

/-- The text that stands for a variable. -/
def placeholder (name : List Char) : List Char := '\x7b' :: (name ++ ['\x7d'])

theorem placeholder_append (w s : List Char) : placeholder w ++ s = '\x7b' :: (w ++ '\x7d' :: s) := by
  simp [placeholder]

theorem replace_placeholder :
    replace (placeholder w) new (placeholder w ++ s) = new ++ replace (placeholder w) new s :=
  replace_append (List.cons_ne_nil _ _)

theorem not_placeholder_of_ne (hc : c ≠ '\x7b') : ¬placeholder w <+: c :: s := by
  intro h
  exact hc (List.cons_prefix_cons.mp h).1.symm

theorem placeholder_prefix_iff (hw : '\x7d' ∉ w) (ht : '\x7d' ∉ t) :
    placeholder w <+: '\x7b' :: (t ++ '\x7d' :: s) ↔ t = w := by
  constructor
  · rintro ⟨rest, hrest⟩
    have h : w ++ '\x7d' :: rest = t ++ '\x7d' :: s := by simpa [placeholder] using hrest
    exact (append_cons_inj hw ht h).1.symm
  · rintro rfl
    exact ⟨s, placeholder_append t s⟩

theorem replace_block (hw : '\x7d' ∉ w) (ho : '\x7b' ∉ t) (hc : '\x7d' ∉ t) :
    replace (placeholder w) new ('\x7b' :: (t ++ '\x7d' :: s)) =
      (if t = w then new else placeholder t) ++ replace (placeholder w) new s := by
  by_cases h : t = w
  · subst h
    rw [if_pos rfl, ← placeholder_append, replace_placeholder]
  · have hs : t ++ '\x7d' :: s = (t ++ ['\x7d']) ++ s := by simp
    have hq : '\x7b' ∉ t ++ ['\x7d'] := by simp [ho]
    rw [if_neg h, replace_cons (mt (placeholder_prefix_iff hw hc).mp h), hs, placeholder, replace_skip hq]
    rfl

theorem replace_unclosed (ho : '\x7b' ∉ t) (hc : '\x7d' ∉ t) :
    replace (placeholder w) new ('\x7b' :: t) = '\x7b' :: t := by
  have hp : ¬placeholder w <+: '\x7b' :: t := by
    intro h
    have : '\x7d' ∈ '\x7b' :: t := h.subset (by simp [placeholder])
    simp [hc] at this
  rw [replace_cons hp, ← List.append_nil t, placeholder, replace_skip ho, replace_nil]

/-- A replacement by a text that opens no brace leaves nothing nested. -/
theorem Flat.replace (hw : '\x7d' ∉ w) (hn : '\x7b' ∉ new) (h : Flat s) :
    Flat (Text.replace (placeholder w) new s) := by
  induction h with
  | nil => exact .nil
  | @char c s hc _ ih =>
    rw [replace_cons (not_placeholder_of_ne hc)]
    exact .char hc ih
  | @block t s ho hc _ ih =>
    rw [replace_block hw ho hc]
    split
    · exact ih.append hn
    · simpa [placeholder] using Flat.block ho hc ih
  | unclosed ho hc =>
    rw [replace_unclosed ho hc]
    exact .unclosed ho hc

/-! ### One substitution -/

theorem placeholder?_eq_some : placeholder? values s = some (w, value) ↔
    (∃ rest, s = '\x7b' :: (w ++ '\x7d' :: rest)) ∧ '\x7b' ∉ w ∧ '\x7d' ∉ w ∧
      values.get? (String.ofList w) = some value := by
  simp only [placeholder?, Option.bind_eq_some_iff, after?_eq_some, Prod.exists, cut?_eq_some]
  constructor
  · rintro ⟨t, rest, ⟨_, rfl, rfl, ht⟩, h⟩
    split at h
    · cases h
    · next ho =>
      obtain ⟨value, hv, he⟩ := Option.map_eq_some_iff.mp h
      obtain ⟨rfl, rfl⟩ := Prod.mk.inj he
      exact ⟨⟨rest, rfl⟩, ho, ht, hv⟩
  · rintro ⟨⟨rest, rfl⟩, ho, hc, hv⟩
    exact ⟨w, rest, ⟨_, rfl, rfl, hc⟩, by rw [if_neg ho, hv, Option.map_some]⟩

theorem placeholder?_eq_none
    (h : ∀ w rest, s = '\x7b' :: (w ++ '\x7d' :: rest) → '\x7d' ∉ w →
      values.get? (String.ofList w) = none) : placeholder? values s = none := by
  rw [Option.eq_none_iff_forall_not_mem]
  rintro ⟨w, value⟩ hw
  obtain ⟨⟨rest, hs⟩, -, hc, hv⟩ := placeholder?_eq_some.mp hw
  simp [h w rest hs hc] at hv

theorem substituteFrom_length_append (skipped : List Char) :
    substituteFrom values skipped.length (skipped ++ s) = substitute values s := by
  induction skipped with
  | nil => rfl
  | cons _ skipped ih => exact ih

theorem substitute_cons (h : placeholder? values (c :: s) = none) :
    substitute values (c :: s) = c :: substitute values s := by
  rw [substitute, substituteFrom, h]
  rfl

theorem substitute_cons_of_ne (hc : c ≠ '\x7b') :
    substitute values (c :: s) = c :: substitute values s :=
  substitute_cons (placeholder?_eq_none fun _ _ h _ => (hc (List.cons.inj h).1).elim)

theorem substitute_append (hf : '\x7b' ∉ front) :
    substitute values (front ++ s) = front ++ substitute values s := by
  induction front with
  | nil => rfl
  | cons c front ih =>
    obtain ⟨hc, hf⟩ := not_or.mp (mt List.mem_cons.mpr hf)
    rw [List.cons_append, substitute_cons_of_ne (Ne.symm hc), ih hf, List.cons_append]

theorem substitute_block (ho : '\x7b' ∉ t) (hc : '\x7d' ∉ t) :
    substitute values ('\x7b' :: (t ++ '\x7d' :: s)) =
      ((values.get? (String.ofList t)).elim (placeholder t) String.toList) ++ substitute values s := by
  cases hv : values.get? (String.ofList t) with
  | some value =>
    have hp : placeholder? values ('\x7b' :: (t ++ '\x7d' :: s)) = some (t, value) :=
      placeholder?_eq_some.mpr ⟨⟨s, rfl⟩, ho, hc, hv⟩
    have hs : t ++ '\x7d' :: s = (t ++ ['\x7d']) ++ s := by simp
    have hl : t.length + 1 = (t ++ ['\x7d']).length := by simp
    rw [substitute, substituteFrom, hp]
    simp only [hs, hl, substituteFrom_length_append, Option.elim_some]
  | none =>
    have hp : placeholder? values ('\x7b' :: (t ++ '\x7d' :: s)) = none := by
      refine placeholder?_eq_none fun w rest h hw => ?_
      have hwt : t = w := (append_cons_inj hc hw (List.cons.inj h).2).1
      exact hwt ▸ hv
    have hs : t ++ '\x7d' :: s = (t ++ ['\x7d']) ++ s := by simp
    have hq : '\x7b' ∉ t ++ ['\x7d'] := by simp [ho]
    rw [substitute_cons hp, hs, substitute_append hq]
    rfl

theorem substitute_unclosed (ho : '\x7b' ∉ t) (hc : '\x7d' ∉ t) :
    substitute values ('\x7b' :: t) = '\x7b' :: t := by
  have hp : placeholder? values ('\x7b' :: t) = none := by
    refine placeholder?_eq_none fun w rest h _ => ?_
    simp [(List.cons.inj h).2] at hc
  rw [substitute_cons hp, ← List.append_nil t, substitute_append ho]
  rfl

/-! ### One after another -/

/-- Without variables a text stays as it is. -/
theorem substitute_nil (s : List Char) : substitute [] s = s := by
  induction s with
  | nil => rfl
  | cons c s ih => rw [substitute_cons (placeholder?_eq_none fun _ _ _ _ => rfl), ih]

/-- The first variable can be replaced before the others, where its value opens no brace. -/
theorem substitute_cons_entry (hn : '\x7d' ∉ name.toList) (hv : '\x7b' ∉ value.toList) (h : Flat s) :
    substitute ((name, value) :: values) s =
      substitute values (replace (placeholder name.toList) value.toList s) := by
  induction h with
  | nil => rfl
  | @char c s hc _ ih =>
    rw [replace_cons (not_placeholder_of_ne hc), substitute_cons_of_ne hc, ih, substitute_cons_of_ne hc]
  | @block t s ho hc _ ih =>
    rw [replace_block hn ho hc, substitute_block ho hc, ih]
    by_cases ht : t = name.toList
    · subst ht
      rw [if_pos rfl, substitute_append hv, String.ofList_toList, Entries.get?, if_pos rfl]
      rfl
    · have hne : name ≠ String.ofList t := fun h => ht (by rw [h, String.toList_ofList])
      rw [if_neg ht, Entries.get?, if_neg hne, ← substitute_block ho hc]
      simp [placeholder]
  | unclosed ho hc =>
    rw [replace_unclosed ho hc, substitute_unclosed ho hc, substitute_unclosed ho hc]

/-- One replacement is one substitution, in any text, where the name is without braces. -/
theorem replace_eq_substitute (ho : '\x7b' ∉ name.toList) (hc : '\x7d' ∉ name.toList) (s : List Char) :
    replace (placeholder name.toList) value.toList s = substitute [(name, value)] s := by
  match s with
  | [] => rfl
  | c :: s =>
    by_cases h : placeholder name.toList <+: c :: s
    · obtain ⟨rest, hrest⟩ := h
      have hlt : rest.length < s.length := by
        have hlength := congrArg List.length hrest
        simp [placeholder] at hlength
        omega
      rw [← hrest, replace_placeholder, replace_eq_substitute ho hc rest, placeholder_append,
        substitute_block ho hc]
      simp [Entries.get?]
    · have hp : placeholder? [(name, value)] (c :: s) = none := by
        refine placeholder?_eq_none fun w rest hs hw => ?_
        have hne : name ≠ String.ofList w := by
          rintro rfl
          exact h ⟨rest, by rw [placeholder_append, hs, String.toList_ofList]⟩
        rw [Entries.get?, if_neg hne]
        rfl
      rw [replace_cons h, substitute_cons hp, replace_eq_substitute ho hc s]
termination_by s.length

/-- Replacing the variables in turn substitutes one after another. -/
theorem foldl_replace_eq (hn : ∀ e ∈ values, '\x7b' ∉ e.1.toList ∧ '\x7d' ∉ e.1.toList) (s : List Char) :
    values.foldl (fun s e => replace (placeholder e.1.toList) e.2.toList s) s =
      values.foldl (fun s e => substitute [e] s) s := by
  refine List.foldl_ext _ _ _ fun s e he => ?_
  exact replace_eq_substitute (hn e he).1 (hn e he).2 s

/-- Replacing the variables in turn substitutes them all, in text where no braces nest. -/
theorem foldl_replace (hn : ∀ e ∈ values, '\x7d' ∉ e.1.toList) (hv : ∀ e ∈ values, '\x7b' ∉ e.2.toList)
    (h : Flat s) :
    values.foldl (fun s e => replace (placeholder e.1.toList) e.2.toList s) s = substitute values s := by
  induction values generalizing s with
  | nil => exact (substitute_nil s).symm
  | cons e values ih =>
    obtain ⟨hne, hn⟩ := List.forall_mem_cons.mp hn
    obtain ⟨hve, hv⟩ := List.forall_mem_cons.mp hv
    rw [List.foldl_cons, ih hn hv (h.replace hne hve), substitute_cons_entry hne hve h]

theorem substituteFrom_congr {values' : Entries String String}
    (h : ∀ name, values'.get? name = values.get? name) (skip : Nat) :
    substituteFrom values' skip s = substituteFrom values skip s := by
  have hp (s : List Char) : placeholder? values' s = placeholder? values s := by
    simp only [placeholder?, h]
  induction s generalizing skip with
  | nil => cases skip <;> rfl
  | cons c s ih =>
    cases skip with
    | zero => simp only [substituteFrom, hp, ih]
    | succ skip => exact ih skip

/-- What is substituted does not depend on the order of the variables. -/
theorem substitute_perm {order : Entries String String} (hd : (Entries.keys values).Nodup)
    (hp : order.Perm values) : substitute order s = substitute values s := by
  have hk : (Entries.keys order).Nodup := (hp.map Prod.fst).nodup_iff.mpr hd
  refine substituteFrom_congr (fun name => ?_) 0
  ext value
  rw [Entries.get?_eq_some_iff_mem hk, Entries.get?_eq_some_iff_mem hd, hp.mem_iff]

end Text

namespace Document
variable {server : Server}

/-- Every variable of the URL replaced by its default, in one scan from the left. -/
def Server.substituted (server : Server) : String :=
  String.ofList (Text.substitute server.defaults server.url.toList)

/-- No name closes a brace, no default opens one, and in the URL none is opened within another. -/
structure Server.Tidy (server : Server) : Prop where
  names : ∀ e ∈ server.defaults, '\x7d' ∉ e.1.toList
  defaults : ∀ e ∈ server.defaults, '\x7b' ∉ e.2.toList
  url : Text.Unnested server.url.toList

theorem Server.Tidy.resolvedUrl (h : server.Tidy) : server.resolvedUrl = server.substituted :=
  congrArg String.ofList (Text.foldl_replace h.names h.defaults h.url.flat)

/-- Each variable is replaced in one scan, one variable after another. For a tidy server that is to replace
them all at once: no default is looked at again, and the order of the variables does not matter. -/
theorem Server.resolvedUrl_eq_substituted (server : Server) :
    ((∀ e ∈ server.defaults, '\x7b' ∉ e.1.toList ∧ '\x7d' ∉ e.1.toList) → server.resolvedUrl =
      String.ofList (server.defaults.foldl (fun url e => Text.substitute [e] url) server.url.toList)) ∧
    (server.Tidy → server.resolvedUrl = server.substituted ∧
      ((Entries.keys server.defaults).Nodup → ∀ order : Entries String String,
        order.Perm server.defaults →
          Server.resolvedUrl { server with defaults := order } = server.resolvedUrl)) := by
  refine ⟨fun hn => congrArg String.ofList (Text.foldl_replace_eq hn _), fun h => ?_⟩
  refine ⟨h.resolvedUrl, fun hd order hp => ?_⟩
  have ho : Server.Tidy { server with defaults := order } :=
    { names := fun e he => h.names e (hp.mem_iff.mp he)
      defaults := fun e he => h.defaults e (hp.mem_iff.mp he)
      url := h.url }
  rw [ho.resolvedUrl, h.resolvedUrl, Server.substituted, Text.substitute_perm hd hp]
  rfl

/-- Two variables in either order; what one of them brings in closes a brace, which changes nothing. -/
theorem Server.resolvedUrl_two_variables :
    let server : Server :=
      ⟨"https://\x7bregion\x7d.example.com/\x7bversion\x7d/\x7bid\x7d",
        [("region", "eu"), ("version", "v1\x7d")]⟩
    (server.Tidy ∧ (Entries.keys server.defaults).Nodup) ∧
      server.resolvedUrl = "https://eu.example.com/v1\x7d/\x7bid\x7d" ∧
      server.resolvedUrl = server.substituted ∧
      server.resolvedUrl = String.ofList
        (server.defaults.foldl (fun url e => Text.substitute [e] url) server.url.toList) ∧
      Server.resolvedUrl { server with defaults := server.defaults.reverse } = server.resolvedUrl := by
  intro server
  have htidy : server.Tidy := ⟨by decide, by decide, by decide⟩
  have hd : (Entries.keys server.defaults).Nodup := by decide
  obtain ⟨hone, htidily⟩ := Server.resolvedUrl_eq_substituted server
  obtain ⟨hs, horder⟩ := htidily htidy
  exact ⟨⟨htidy, hd⟩, by decide, hs, hone (by decide), horder hd _ (List.reverse_perm _)⟩

/-- A default that looks like a placeholder is replaced again, where its variable comes later. -/
theorem Server.resolvedUrl_default_replaced :
    let server : Server := ⟨"\x7ba\x7d", [("a", "\x7bb\x7d"), ("b", "x")]⟩
    server.resolvedUrl = "x" ∧ server.substituted = "\x7bb\x7d" ∧
      Server.resolvedUrl { server with defaults := server.defaults.reverse } = "\x7bb\x7d" := by
  decide

/-- A name within another placeholder is replaced, and completes it. -/
example :
    let server : Server := ⟨"\x7bp\x7bx\x7d\x7d", [("x", "1"), ("p1", "q")]⟩
    server.resolvedUrl = "q" ∧ server.substituted = "\x7bp1\x7d" := by
  decide

end Document
end ClientGen
