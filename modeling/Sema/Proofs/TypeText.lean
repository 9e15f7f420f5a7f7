import Mathlib.Algebra.BigOperators.Group.List.Basic
import Mathlib.Algebra.Ring.Int.Defs
import Sema.Proofs.TypeNames

/-!
# `Sema.Proofs.TypeText`: what the name of a function type or tuple tells

The name of a function type is `ret^(a,ref b)` and that of a tuple `a,b`. What can be read off such
a name depends on what stands outside all brackets, round or square. `height` counts the brackets
that a text leaves open, and a text `Exposes` a character that stands where none is open.

The names of built types are `Tidy`: their brackets match, and they expose no space. So the result
and the list of parameters of a function type can be read off its name (`Signature.name_eq_iff`),
and whether a parameter is passed by reference (`TypeRef.paramText_eq_iff`). Where one parameter
ends can be told only if no parameter exposes a comma or has an empty name, that is, if all of them
are `Single` (`commas_inj`).
-/

set_option autoImplicit false

namespace Sema

/-- What a character adds to the number of open brackets. -/
def bracketWeight (c : Char) : Int :=
  if c = '(' ∨ c = '[' then 1 else if c = ')' ∨ c = ']' then -1 else 0

/-- How many brackets a text opens, less those that it closes. -/
def height (text : List Char) : Int := (text.map bracketWeight).sum

/-- The empty text opens no bracket. -/
@[simp] theorem height_nil : height [] = 0 := rfl

/-- The height is summed over the characters. -/
@[simp] theorem height_cons (c : Char) (text : List Char) :
    height (c :: text) = bracketWeight c + height text := by
  simp [height]

/-- The heights of two texts add up. -/
@[simp] theorem height_append (a b : List Char) : height (a ++ b) = height a + height b := by
  simp [height]

/-- Every bracket that opens is closed, and none is closed that is not open. -/
structure Matched (text : List Char) : Prop where
  above : ∀ front, front <+: text → 0 ≤ height front
  level : height text = 0

namespace Matched

variable {a b text : List Char}

/-- The empty text is matched. -/
theorem nil : Matched [] where
  above := by
    intro front hfront
    rw [List.prefix_nil.mp hfront]
    simp
  level := rfl

/-- One matched text after another is matched. -/
theorem append (ha : Matched a) (hb : Matched b) : Matched (a ++ b) where
  above := by
    intro front hfront
    rcases List.prefix_or_prefix_of_prefix hfront (List.prefix_append a b) with hin | ⟨rest, rfl⟩
    · exact ha.above front hin
    · -- The front goes beyond `a`, which leaves no bracket open.
      rw [height_append, ha.level, zero_add]
      exact hb.above rest ((List.prefix_append_right_inj a).mp hfront)
  level := by simp [ha.level, hb.level]

/-- A character that is no bracket. -/
theorem single {c : Char} (h : bracketWeight c = 0) : Matched [c] where
  above := by
    intro front hfront
    rcases List.prefix_cons_iff.mp hfront with rfl | ⟨t, rfl, ht⟩
    · simp
    · simp [List.prefix_nil.mp ht, h]
  level := by simp [h]

/-- A text without brackets. -/
theorem of_flat (h : ∀ c ∈ text, bracketWeight c = 0) : Matched text := by
  induction text with
  | nil => exact nil
  | cons c rest ih =>
    obtain ⟨hc, hrest⟩ := List.forall_mem_cons.mp h
    exact (single hc).append (ih hrest)

/-- A text in brackets. -/
theorem wrap {l r : Char} (hl : bracketWeight l = 1) (hr : bracketWeight r = -1)
    (h : Matched text) : Matched (l :: (text ++ [r])) where
  above := by
    intro front hfront
    rcases List.prefix_cons_iff.mp hfront with rfl | ⟨t, rfl, ht⟩
    · simp
    · rw [height_cons, hl]
      rcases List.prefix_concat_iff.mp ht with rfl | hin
      · simp [h.level, hr]
      · have := h.above t hin
        omega
  level := by simp [hl, hr, h.level]

/-- The last bracket that is not closed is found in one place only. -/
theorem open_unique {r r' a' : List Char} {l : Char} (ha : Matched a) (ha' : Matched a')
    (hl : bracketWeight l = 1) (h : r ++ l :: a = r' ++ l :: a') : r = r' ∧ a = a' := by
  -- Before another such place a bracket would have to be closed that was not opened.
  have hno : ∀ {b b' rest : List Char}, Matched b → Matched b' → b ≠ rest ++ l :: b' := by
    rintro b b' rest hb hb' rfl
    have hrest := hb.above rest (List.prefix_append rest _)
    have hlevel := hb.level
    rw [height_append, height_cons, hl, hb'.level] at hlevel
    omega
  rcases List.append_eq_append_iff.mp h with ⟨rest, rfl, hrest⟩ | ⟨rest, rfl, hrest⟩
  · cases rest with
    | nil => exact ⟨(List.append_nil r).symm, (List.cons.inj hrest).2⟩
    | cons x rest => exact absurd (List.cons.inj hrest).2 (hno ha ha')
  · cases rest with
    | nil => exact ⟨List.append_nil r', (List.cons.inj hrest).2.symm⟩
    | cons x rest => exact absurd (List.cons.inj hrest).2 (hno ha' ha)

end Matched

/-- The character stands somewhere in the text outside all brackets. -/
def Exposes (c : Char) (text : List Char) : Prop :=
  ∃ front back, text = front ++ c :: back ∧ height front = 0

section Exposes

variable {c : Char} {a b text : List Char}

/-- A character is exposed when it stands at an index with no bracket open before it. -/
theorem exposes_iff_exists_index :
    Exposes c text ↔ ∃ i ∈ List.range text.length,
      text[i]? = some c ∧ height (text.take i) = 0 := by
  constructor
  · rintro ⟨front, back, rfl, hfront⟩
    refine ⟨front.length, ?_, ?_, ?_⟩
    · simp
    · simp
    · simpa using hfront
  · rintro ⟨i, -, hi, hheight⟩
    obtain ⟨hlt, rfl⟩ := List.getElem?_eq_some_iff.mp hi
    exact ⟨text.take i, text.drop (i + 1), by simp, hheight⟩

/-- Whether a text exposes a character is decided by trying all indices. -/
instance (c : Char) (text : List Char) : Decidable (Exposes c text) :=
  decidable_of_iff' _ exposes_iff_exists_index

/-- What a text exposes is in it. -/
theorem Exposes.mem (h : Exposes c text) : c ∈ text := by
  obtain ⟨front, back, rfl, -⟩ := h
  simp

/-- Behind a text that leaves no bracket open, a text exposes what it exposes alone. -/
theorem exposes_append_iff (ha : height a = 0) :
    Exposes c (a ++ b) ↔ Exposes c a ∨ Exposes c b := by
  constructor
  · rintro ⟨front, back, htext, hfront⟩
    -- The character stands in the second text, or just after the first, or inside the first.
    rcases List.append_eq_append_iff.mp htext with ⟨rest, rfl, hb⟩ | ⟨rest, hrest, hc⟩
    · right
      refine ⟨rest, back, hb, ?_⟩
      simpa [ha] using hfront
    · cases rest with
      | nil =>
        right
        exact ⟨[], back, hc.symm, rfl⟩
      | cons x rest =>
        obtain ⟨rfl, -⟩ := List.cons.inj hc
        exact Or.inl ⟨front, rest, hrest, hfront⟩
  · rintro (⟨front, back, rfl, hfront⟩ | ⟨front, back, rfl, hfront⟩)
    · exact ⟨front, back ++ b, by simp, hfront⟩
    · exact ⟨a ++ front, back, by simp, by simp [ha, hfront]⟩

/-- Brackets hide what they hold. -/
theorem not_exposes_wrap {l r : Char} (hl : bracketWeight l = 1) (hne : c ≠ l) (h : Matched text) :
    ¬Exposes c (l :: (text ++ [r])) := by
  rintro ⟨front, back, htext, hfront⟩
  cases front with
  | nil => exact hne (List.cons.inj htext).1.symm
  | cons x front =>
    obtain ⟨rfl, hrest⟩ := List.cons.inj htext
    -- What stands before the character within the brackets is the front of a matched text.
    have hin : front <+: text := by
      rcases List.append_eq_append_iff.mp hrest with ⟨rest, rfl, hlast⟩ | ⟨rest, rfl, -⟩
      · cases rest with
        | nil => simp
        | cons y rest => simp at hlast
      · exact List.prefix_append front rest
    have := h.above front hin
    rw [height_cons, hl] at hfront
    omega

/-- Where a character stands that the texts before it do not show. -/
theorem split_at_exposed {a' b' : List Char} (ha : height a = 0) (ha' : height a' = 0)
    (hna : ¬Exposes c a) (hna' : ¬Exposes c a') (h : a ++ c :: b = a' ++ c :: b') :
    a = a' ∧ b = b' := by
  -- If one front is longer, it exposes the separator.
  rcases List.append_eq_append_iff.mp h with ⟨rest, hrest, hb⟩ | ⟨rest, hrest, hb⟩
  · cases rest with
    | nil => simp_all
    | cons x rest =>
      obtain ⟨rfl, -⟩ := List.cons.inj hb
      exact absurd ⟨a, rest, hrest, ha⟩ hna'
  · cases rest with
    | nil => simp_all
    | cons x rest =>
      obtain ⟨rfl, -⟩ := List.cons.inj hb
      exact absurd ⟨a', rest, hrest, ha'⟩ hna

end Exposes

/-! ### Lists with commas -/

/-- A list of several texts is the first one, a comma and the list of the others. -/
theorem toList_commas (s t : String) (rest : List String) :
    (commas (s :: t :: rest)).toList = s.toList ++ ',' :: (commas (t :: rest)).toList := by
  simp [commas]

/-- A list of matched texts is matched. -/
theorem matched_commas {texts : List String} (h : ∀ t ∈ texts, Matched t.toList) :
    Matched (commas texts).toList := by
  induction texts with
  | nil => exact .nil
  | cons s rest ih =>
    obtain ⟨hs, hrest⟩ := List.forall_mem_cons.mp h
    cases rest with
    | nil => exact hs
    | cons t rest =>
      rw [toList_commas]
      have hcomma : Matched [','] := .single (by decide)
      exact hs.append (hcomma.append (ih hrest))

/-- A list exposes what one of its texts exposes, and commas. -/
theorem not_exposes_commas {c : Char} {texts : List String} (hc : c ≠ ',')
    (hmatched : ∀ t ∈ texts, Matched t.toList) (h : ∀ t ∈ texts, ¬Exposes c t.toList) :
    ¬Exposes c (commas texts).toList := by
  induction texts with
  | nil => exact fun hexposes => absurd hexposes.mem (by simp [commas])
  | cons s rest ih =>
    obtain ⟨hs, hrest⟩ := List.forall_mem_cons.mp hmatched
    obtain ⟨hns, hnrest⟩ := List.forall_mem_cons.mp h
    cases rest with
    | nil => exact hns
    | cons t rest =>
      have hcomma : height [','] = 0 := by decide
      rw [toList_commas, exposes_append_iff hs.level, ← List.singleton_append,
        exposes_append_iff hcomma]
      -- In the first text, as the comma, or further on.
      rintro (hexposes | hexposes | hexposes)
      · exact hns hexposes
      · exact hc (List.mem_singleton.mp hexposes.mem)
      · exact ih hrest hnrest hexposes

/-- A text that can be told apart from others with commas between them. -/
def Single (text : String) : Prop := text ≠ "" ∧ ¬Exposes ',' text.toList

/-- Whether a text reads as one item of a list is decidable. -/
instance (text : String) : Decidable (Single text) :=
  inferInstanceAs (Decidable (text ≠ "" ∧ ¬Exposes ',' text.toList))

/-- Texts that can be told apart can be read off the list of them. -/
theorem commas_inj {a b : List String} (ha : ∀ t ∈ a, Matched t.toList ∧ Single t)
    (hb : ∀ t ∈ b, Matched t.toList ∧ Single t) (h : commas a = commas b) : a = b := by
  -- The list of texts that are told apart is empty only if there are none.
  have hempty : ∀ {s : String} {rest : List String}, Single s → commas (s :: rest) ≠ "" := by
    intro s rest hs hcommas
    cases rest with
    | nil => exact hs.1 hcommas
    | cons t rest => simpa [commas] using congrArg String.toList hcommas
  have hone : ∀ {s t u : String} {rest : List String}, Matched t.toList → Single s →
      s ≠ commas (t :: u :: rest) := by
    intro s t u rest ht hs heq
    have htext := congrArg String.toList heq
    rw [toList_commas] at htext
    exact hs.2 ⟨_, _, htext, ht.level⟩
  induction a generalizing b with
  | nil =>
    cases b with
    | nil => rfl
    | cons t rest => exact absurd h.symm (hempty (hb t List.mem_cons_self).2)
  | cons s rest ih =>
    obtain ⟨⟨hs, hsone⟩, hrest⟩ := List.forall_mem_cons.mp ha
    cases b with
    | nil => exact absurd h (hempty hsone)
    | cons t rest' =>
      obtain ⟨⟨ht, htone⟩, hrest'⟩ := List.forall_mem_cons.mp hb
      cases rest with
      | nil =>
        cases rest' with
        | nil => exact congrArg (· :: []) h
        | cons u rest' => exact absurd h (hone ht hsone)
      | cons v rest =>
        cases rest' with
        | nil => exact absurd h.symm (hone hs htone)
        | cons u rest' =>
          have htext := congrArg String.toList h
          rw [toList_commas, toList_commas] at htext
          obtain ⟨hhead, htail⟩ := split_at_exposed hs.level ht.level hsone.2 htone.2 htext
          rw [String.toList_inj.mp hhead, ih hrest hrest' (String.toList_inj.mp htail)]

/-! ### The names of types -/

/-- The brackets match, and no space stands outside them. -/
structure Tidy (name : String) : Prop where
  matched : Matched name.toList
  spaceless : ¬Exposes ' ' name.toList

namespace Tidy

variable {item key value : String}

/-- Letters, digits and underscores are no brackets and no spaces. -/
theorem of_simple {name : String} (h : isCompound name = false) : Tidy name := by
  have hword : ∀ c ∈ name.toList, Text.isWordChar c = true := by
    intro c hc
    unfold isCompound at h
    simpa using List.any_eq_false.mp h c hc
  constructor
  · refine .of_flat fun c hc => ?_
    have hne : ∀ d, Text.isWordChar d = false → c ≠ d := by
      rintro d hd rfl
      rw [hword c hc] at hd
      cases hd
    simp [bracketWeight, hne '(' (by decide), hne '[' (by decide), hne ')' (by decide),
      hne ']' (by decide)]
  · intro hexposes
    exact absurd (hword ' ' hexposes.mem) (by decide)

/-- Array types of tidy items have tidy names. -/
theorem array (h : Tidy item) : Tidy (item ++ "[]") := by
  have htext : (item ++ "[]").toList = item.toList ++ '[' :: ([] ++ [']']) := by simp
  have hwrap : Matched ('[' :: ([] ++ [']'])) := Matched.nil.wrap (by decide) (by decide)
  refine ⟨?_, ?_⟩
  · rw [htext]
    exact h.matched.append hwrap
  · rw [htext, exposes_append_iff h.matched.level]
    rintro (hexposes | hexposes)
    · exact h.spaceless hexposes
    · exact not_exposes_wrap (by decide) (by decide) .nil hexposes

/-- Map types of tidy keys and values have tidy names. -/
theorem map (hk : Tidy key) (hv : Tidy value) : Tidy ("[" ++ key ++ "]" ++ value) := by
  have htext : ("[" ++ key ++ "]" ++ value).toList
      = ('[' :: (key.toList ++ [']'])) ++ value.toList := by simp
  have hwrap : Matched ('[' :: (key.toList ++ [']'])) := hk.matched.wrap (by decide) (by decide)
  refine ⟨?_, ?_⟩
  · rw [htext]
    exact hwrap.append hv.matched
  · rw [htext, exposes_append_iff hwrap.level]
    rintro (hexposes | hexposes)
    · exact not_exposes_wrap (by decide) (by decide) hk.matched hexposes
    · exact hv.spaceless hexposes

end Tidy

/-- Tuples of tidy items have tidy names. -/
theorem Tuple.tidy {t : Tuple} (h : ∀ p ∈ t.items, Tidy p.name) : Tidy t.name := by
  have htexts : ∀ text ∈ t.items.map TypeRef.name, Tidy text := by
    simpa using h
  rw [t.name_eq]
  exact ⟨matched_commas fun text htext => (htexts text htext).matched,
    not_exposes_commas (by decide) (fun text htext => (htexts text htext).matched)
      fun text htext => (htexts text htext).spaceless⟩

namespace TypeRef

variable {p q : TypeRef}

/-- The text of a parameter is matched. -/
theorem matched_paramText (h : Tidy p.name) : Matched p.paramText.toList := by
  unfold paramText
  split
  · have hmark : Matched ['r', 'e', 'f', ' '] := .of_flat (by simp [bracketWeight])
    rw [String.toList_append]
    exact hmark.append h.matched
  · exact h.matched

/-- The text of a parameter reads as one item of a list. -/
theorem single_paramText (h : Single p.name) : Single p.paramText := by
  unfold paramText
  split
  · refine ⟨fun hempty => ?_, ?_⟩
    · simpa using congrArg String.toList hempty
    · -- The mark in front has neither brackets nor commas.
      have hmark : height "ref ".toList = 0 := by decide
      rw [String.toList_append, exposes_append_iff hmark]
      rintro (hexposes | hexposes)
      · exact absurd hexposes.mem (by decide)
      · exact h.2 hexposes
  · exact h

/-- The mark for passing by reference ends with a space, which no name exposes. -/
theorem paramText_eq_iff (hp : Tidy p.name) (hq : Tidy q.name) :
    p.paramText = q.paramText ↔ p.name = q.name ∧ p.byRef = q.byRef := by
  -- A tidy name exposes no space, and the mark of a reference does.
  have hmark : ∀ {a b : String}, Tidy b → "ref " ++ a ≠ b := by
    rintro a b hb rfl
    exact hb.spaceless ⟨['r', 'e', 'f'], a.toList, by simp, by decide⟩
  unfold paramText
  cases hbp : p.byRef with
  | true =>
    cases hbq : q.byRef with
    | true => simp
    | false => simp [hmark hq]
  | false =>
    cases hbq : q.byRef with
    | true => simp [(hmark hp).symm]
    | false => simp

/-- Lists of parameters with equal texts have equal names and ways of passing. -/
theorem map_paramText_eq_iff {ps qs : List TypeRef} (hp : ∀ p ∈ ps, Tidy p.name)
    (hq : ∀ q ∈ qs, Tidy q.name) :
    ps.map paramText = qs.map paramText ↔
      ps.map (fun p => (p.name, p.byRef)) = qs.map fun q => (q.name, q.byRef) := by
  induction ps generalizing qs with
  | nil => simp
  | cons p ps ih =>
    obtain ⟨hname, hps⟩ := List.forall_mem_cons.mp hp
    cases qs with
    | nil => simp
    | cons q qs =>
      obtain ⟨hname', hqs⟩ := List.forall_mem_cons.mp hq
      simp only [List.map_cons, List.cons.injEq, Prod.mk.injEq, paramText_eq_iff hname hname',
        ih hps hqs]

end TypeRef

namespace Signature

/-- The names of the result and the parameters are tidy. -/
def Tidy (s : Signature) : Prop := Sema.Tidy s.ret.name ∧ ∀ p ∈ s.params, Sema.Tidy p.name

/-- The parameters as the name lists them. -/
def paramList (s : Signature) : String := commas (s.params.map TypeRef.paramText)

variable {s t : Signature}

/-- The name of a signature as a list of characters. -/
theorem toList_name (s : Signature) :
    s.name.toList = s.ret.name.toList ++ '^' :: '(' :: (s.paramList.toList ++ [')']) := by
  simp [s.name_eq, text, paramList]

/-- The list of parameters of a tidy signature is matched. -/
theorem Tidy.matched_paramList (h : s.Tidy) : Matched s.paramList.toList := by
  refine matched_commas fun text htext => ?_
  obtain ⟨p, hp, rfl⟩ := List.mem_map.mp htext
  exact TypeRef.matched_paramText (h.2 p hp)

/-- What the name exposes besides `^` and `(` is exposed by the result. -/
theorem Tidy.exposes_name_iff (h : s.Tidy) {c : Char} (hcaret : c ≠ '^') (hopen : c ≠ '(') :
    Exposes c s.name.toList ↔ Exposes c s.ret.name.toList := by
  have hflat : height ['^'] = 0 := by decide
  rw [toList_name, exposes_append_iff h.1.matched.level, ← List.singleton_append,
    exposes_append_iff hflat]
  constructor
  · rintro (hexposes | hexposes | hexposes)
    · exact hexposes
    · exact absurd (List.mem_singleton.mp hexposes.mem) hcaret
    · exact absurd hexposes (not_exposes_wrap (by decide) hopen h.matched_paramList)
  · exact Or.inl

/-- The name of a tidy signature is tidy. -/
theorem Tidy.name (h : s.Tidy) : Sema.Tidy s.name := by
  refine ⟨?_, ?_⟩
  · have hcaret : Matched ['^'] := .single (by decide)
    rw [toList_name]
    exact h.1.matched.append
      (hcaret.append (h.matched_paramList.wrap (by decide) (by decide)))
  · rw [h.exposes_name_iff (by decide) (by decide)]
    exact h.1.spaceless

/-- The result and the list of parameters can be read off the name. -/
theorem name_eq_iff (hs : s.Tidy) (ht : t.Tidy) :
    s.name = t.name ↔ s.ret.name = t.ret.name ∧ s.paramList = t.paramList := by
  constructor
  · intro h
    have htext : ((s.ret.name.toList ++ ['^']) ++ '(' :: s.paramList.toList) ++ [')']
        = ((t.ret.name.toList ++ ['^']) ++ '(' :: t.paramList.toList) ++ [')'] := by
      simpa [toList_name] using congrArg String.toList h
    -- The last bracket closes the one in front of the parameters, wherever the other is.
    obtain ⟨hret, hlist⟩ := hs.matched_paramList.open_unique ht.matched_paramList (by decide)
      (List.append_cancel_right htext)
    exact ⟨String.toList_inj.mp (List.append_cancel_right hret), String.toList_inj.mp hlist⟩
  · rintro ⟨hret, hlist⟩
    have htext : s.name.toList = t.name.toList := by rw [toList_name, toList_name, hret, hlist]
    exact String.toList_inj.mp htext

/-- Each parameter can be told apart from the next. -/
def Separate (s : Signature) : Prop := ∀ p ∈ s.params, Single p.name

/-- Whether the parameters of a signature each read as one item is decidable. -/
instance (s : Signature) : Decidable s.Separate :=
  inferInstanceAs (Decidable (∀ p ∈ s.params, Single p.name))

/-- Parameters that can be told apart can be read off the name one by one. -/
theorem paramList_eq_iff (hs : s.Tidy) (ht : t.Tidy) (hssep : s.Separate) (htsep : t.Separate) :
    s.paramList = t.paramList ↔
      s.params.map (fun p => (p.name, p.byRef)) = t.params.map fun p => (p.name, p.byRef) := by
  -- Each parameter is one matched text, so that the commas between them can be told.
  have htexts : ∀ {s : Signature}, s.Tidy → s.Separate →
      ∀ text ∈ s.params.map TypeRef.paramText, Matched text.toList ∧ Single text := by
    intro s hs hsep text htext
    obtain ⟨p, hp, rfl⟩ := List.mem_map.mp htext
    exact ⟨TypeRef.matched_paramText (hs.2 p hp), TypeRef.single_paramText (hsep p hp)⟩
  rw [← TypeRef.map_paramText_eq_iff hs.2 ht.2]
  constructor
  · intro h
    exact commas_inj (htexts hs hssep) (htexts ht htsep) h
  · intro h
    rw [paramList, h, paramList]

/-- The name has a character that no simple name has. -/
theorem isCompound_name (s : Signature) : isCompound s.name = true := by
  have hmem : '^' ∈ s.name.toList := by simp [toList_name]
  exact List.any_eq_true.mpr ⟨'^', hmem, by decide⟩

/-- The name of an array type does not end as that of a function type does. -/
theorem name_ne_array (s : Signature) (item : String) : item ++ "[]" ≠ s.name := by
  intro h
  have htext : (item.toList ++ ['[']) ++ [']']
      = (s.ret.name.toList ++ '^' :: '(' :: s.paramList.toList) ++ [')'] := by
    simpa [toList_name] using congrArg String.toList h
  cases (List.append_inj' htext rfl).2

/-- A function type with the name of a map type has a result whose name begins like one. -/
theorem bracket_of_name_eq_map {key value : String} (h : "[" ++ key ++ "]" ++ value = s.name) :
    s.ret.name.toList.head? = some '[' := by
  have htext : '[' :: (key.toList ++ ']' :: value.toList)
      = s.ret.name.toList ++ '^' :: '(' :: (s.paramList.toList ++ [')']) := by
    simpa [toList_name] using congrArg String.toList h
  cases hret : s.ret.name.toList with
  | nil => simp [hret] at htext
  | cons c rest =>
    rw [hret, List.cons_append] at htext
    rw [(List.cons.inj htext).1, List.head?_cons]

/-- A function type with the name of a tuple exposes a comma in its result, or the tuple has one
item only. -/
theorem exposes_of_name_eq_tuple (hs : s.Tidy) {t : Tuple} (ht : ∀ p ∈ t.items, Sema.Tidy p.name)
    (h : t.name = s.name) : t.items.length = 1 ∨ Exposes ',' s.ret.name.toList := by
  rw [← hs.exposes_name_iff (by decide) (by decide), ← h]
  -- Two items or more have a comma between them that nothing encloses.
  cases hitems : t.items with
  | nil =>
    have htext := congrArg String.toList h
    simp [t.name_eq, Tuple.text, hitems, commas, toList_name] at htext
  | cons p rest =>
    cases rest with
    | nil => exact Or.inl rfl
    | cons q rest =>
      right
      rw [t.name_eq, Tuple.text, hitems, List.map_cons, List.map_cons, toList_commas]
      exact ⟨_, _, rfl, (ht p (by simp [hitems])).matched.level⟩

end Signature

end Sema
