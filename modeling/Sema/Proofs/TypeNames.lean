import Mathlib.Data.List.Basic
import Sema.Context.Structural

/-!
# `Sema.Proofs.TypeNames`: what the rendered name of an array or map type tells

An array type is named `item[]` and a map type `[key]value`. In a name that is built from simple
names the square brackets are balanced, and with balanced keys the parts of a map name can be read
off again (`mapName_inj`). What cannot be read off is whether such a name is meant as an array or as
a map: `mapName_eq_arrayName` says that this happens exactly for arrays of maps and maps to arrays.
-/

set_option autoImplicit false

namespace Sema

/-- The number of brackets that are open after a text, if `depth` of them were open before. There is
none if the text closes one that is not open. -/
def openBrackets (depth : Nat) : List Char → Option Nat
  | [] => some depth
  | c :: rest =>
    if c = '[' then openBrackets (depth + 1) rest
    else if c = ']' then
      if depth = 0 then none else openBrackets (depth - 1) rest
    else openBrackets depth rest

/-- The brackets of two texts are counted one after the other. -/
theorem openBrackets_append (depth : Nat) (front rest : List Char) :
    openBrackets depth (front ++ rest)
      = (openBrackets depth front).bind fun d => openBrackets d rest := by
  induction front generalizing depth with
  | nil => rfl
  | cons c front ih =>
    simp only [List.cons_append, openBrackets]
    split
    · exact ih _
    · split
      · split
        · rfl
        · exact ih _
      · exact ih _

/-- More brackets that are open before stay open. -/
theorem openBrackets_add {depth after : Nat} {text : List Char} (more : Nat)
    (h : openBrackets depth text = some after) :
    openBrackets (depth + more) text = some (after + more) := by
  induction text generalizing depth with
  | nil =>
    cases h
    rfl
  | cons c rest ih =>
    simp only [openBrackets] at h ⊢
    split at h
    · rw [if_pos ‹_›]
      have hrest := ih h
      rwa [Nat.add_right_comm] at hrest
    · rw [if_neg ‹_›]
      split at h
      · rw [if_pos ‹_›]
        split at h
        · cases h
        · -- What closes here is open also with more open before.
          have hrest := ih h
          rw [if_neg (by omega), ← hrest]
          congr 1
          omega
      · rw [if_neg ‹_›]
        exact ih h

/-- A text without brackets opens none. -/
theorem openBrackets_of_forall {text : List Char} (depth : Nat)
    (h : ∀ c ∈ text, c ≠ '[' ∧ c ≠ ']') : openBrackets depth text = some depth := by
  induction text with
  | nil => rfl
  | cons c rest ih =>
    obtain ⟨⟨hopen, hclose⟩, hrest⟩ := List.forall_mem_cons.mp h
    rw [openBrackets, if_neg hopen, if_neg hclose]
    exact ih hrest

/-- All brackets are closed, each after it was opened. -/
def Balanced (text : List Char) : Prop := openBrackets 0 text = some 0

namespace Balanced

variable {a b : List Char}

/-- One balanced text after another is balanced. -/
theorem append (ha : Balanced a) (hb : Balanced b) : Balanced (a ++ b) := by
  rw [Balanced, openBrackets_append, ha]
  exact hb

/-- A balanced text in brackets is balanced. -/
theorem bracketed (ha : Balanced a) : Balanced ('[' :: a ++ [']']) := by
  have hinside : openBrackets 1 a = some 1 := openBrackets_add 1 ha
  show openBrackets 1 (a ++ [']']) = some 0
  rw [openBrackets_append, hinside]
  rfl

/-- A bracket that closes does not follow on a balanced text within a balanced text. -/
theorem not_append_close (ha : Balanced a) : ¬Balanced (a ++ ']' :: b) := by
  rw [Balanced, openBrackets_append, ha]
  nofun

/-- A balanced text does not end with a bracket that opens. -/
theorem not_append_open : ¬Balanced (a ++ ['[']) := by
  rw [Balanced, openBrackets_append]
  intro h
  obtain ⟨d, -, hd⟩ := Option.bind_eq_some_iff.mp h
  cases hd

/-- The bracket that closes the first one of a text is found in one place only. -/
theorem split_unique {a' b' : List Char} (ha : Balanced a) (ha' : Balanced a')
    (h : a ++ ']' :: b = a' ++ ']' :: b') : a = a' ∧ b = b' := by
  -- If one front is longer, it runs over a bracket that closes nothing in it.
  rcases List.append_eq_append_iff.mp h with ⟨c, hc, hrest⟩ | ⟨c, hc, hrest⟩
  · cases c with
    | nil =>
      cases hrest
      exact ⟨by simpa using hc.symm, rfl⟩
    | cons x c =>
      cases hrest
      rw [hc] at ha'
      exact absurd ha' ha.not_append_close
  · cases c with
    | nil =>
      cases hrest
      exact ⟨by simpa using hc, rfl⟩
    | cons x c =>
      cases hrest
      rw [hc] at ha
      exact absurd ha ha'.not_append_close

end Balanced

/-- A name whose parts can be told apart: not empty, and with balanced brackets. -/
def ProperName (name : String) : Prop := name ≠ "" ∧ Balanced name.toList

/-- Whether a name is proper is decidable. -/
instance (name : String) : Decidable (ProperName name) :=
  inferInstanceAs (Decidable (name ≠ "" ∧ openBrackets 0 name.toList = some 0))

namespace ProperName

variable {item key value : String}

/-- Names that can be looked up are proper: no letter is a bracket. -/
theorem of_simple {name : String} (hne : name.isEmpty = false) (h : isCompound name = false) :
    ProperName name := by
  refine ⟨fun hempty => ?_, openBrackets_of_forall 0 fun c hc => ?_⟩
  · rw [hempty] at hne
    cases hne
  · -- Simple names consist of word characters, and brackets are none.
    have hword : Text.isWordChar c = true := by
      unfold isCompound at h
      simpa using List.any_eq_false.mp h c hc
    constructor
    · rintro rfl
      exact absurd hword (by decide)
    · rintro rfl
      exact absurd hword (by decide)

/-- Array types of proper names have proper names. -/
theorem array (h : ProperName item) : ProperName (item ++ "[]") := by
  refine ⟨fun hempty => ?_, ?_⟩
  · simpa using congrArg String.toList hempty
  · rw [String.toList_append]
    exact h.2.append (by decide : openBrackets 0 ['[', ']'] = some 0)

/-- Map types of proper names have proper names. -/
theorem map (hk : ProperName key) (hv : ProperName value) :
    ProperName ("[" ++ key ++ "]" ++ value) := by
  refine ⟨fun hempty => ?_, ?_⟩
  · simpa using congrArg String.toList hempty
  · have htext : ("[" ++ key ++ "]" ++ value).toList
        = ('[' :: key.toList ++ [']']) ++ value.toList := by simp
    rw [htext]
    exact hk.2.bracketed.append hv.2

end ProperName

/-- A list of balanced texts is balanced. -/
theorem balanced_commas {texts : List String} (h : ∀ t ∈ texts, Balanced t.toList) :
    Balanced (commas texts).toList := by
  induction texts with
  | nil => rfl
  | cons t rest ih =>
    obtain ⟨ht, hrest⟩ := List.forall_mem_cons.mp h
    cases rest with
    | nil => exact ht
    | cons u rest =>
      have htext : (commas (t :: u :: rest)).toList
          = t.toList ++ ([','] ++ (commas (u :: rest)).toList) := by simp [commas]
      -- A comma is no bracket.
      rw [htext]
      exact ht.append (Balanced.append (by decide : openBrackets 0 [','] = some 0) (ih hrest))

/-- The name of a function type is proper if those of its result and parameters are. -/
theorem Signature.properName {s : Signature} (hret : ProperName s.ret.name)
    (hparams : ∀ t ∈ s.params, ProperName t.name) : ProperName s.name := by
  -- The mark of a reference parameter has no brackets.
  have hcommas : Balanced (commas (s.params.map TypeRef.paramText)).toList := by
    refine balanced_commas fun text htext => ?_
    obtain ⟨t, ht, rfl⟩ := List.mem_map.mp htext
    unfold TypeRef.paramText
    split
    · rw [String.toList_append]
      exact Balanced.append (by decide : openBrackets 0 ['r', 'e', 'f', ' '] = some 0)
        (hparams t ht).2
    · exact (hparams t ht).2
  refine ⟨fun hempty => ?_, ?_⟩
  · simpa [s.name_eq, Signature.text] using congrArg String.toList hempty
  · have htext : s.name.toList = s.ret.name.toList
        ++ (['^', '('] ++ ((commas (s.params.map TypeRef.paramText)).toList ++ [')'])) := by
      simp [s.name_eq, Signature.text]
    rw [htext]
    exact hret.2.append (Balanced.append (by decide : openBrackets 0 ['^', '('] = some 0)
      (hcommas.append (by decide : openBrackets 0 [')'] = some 0)))

/-- The names from which the name of an array or map type is made are proper. -/
def Structural.Proper : Structural → Prop
  | .array item _ => ProperName item.name
  | .map key value => ProperName key.name ∧ ProperName value.name

/-- A reference has a proper name. A mere name is not taken if it is not simple. -/
def TypeName.Proper : TypeName → Prop
  | .name _ => True
  | .ref t => ProperName t.name

/-- The name of an array type determines the item. -/
theorem arrayName_inj {a b : String} (h : a ++ "[]" = b ++ "[]") : a = b := by
  have hlist := congrArg String.toList h
  simp only [String.toList_append] at hlist
  exact String.toList_inj.mp (List.append_cancel_right hlist)

/-- The name of a map type determines key and value. -/
theorem mapName_inj {key value key' value' : String} (hk : ProperName key) (hk' : ProperName key')
    (h : "[" ++ key ++ "]" ++ value = "[" ++ key' ++ "]" ++ value') :
    key = key' ∧ value = value' := by
  have hlist : key.toList ++ ']' :: value.toList = key'.toList ++ ']' :: value'.toList := by
    simpa using congrArg String.toList h
  -- The key ends at the first bracket that closes more than the key has opened.
  obtain ⟨hkey, hvalue⟩ := hk.2.split_unique hk'.2 hlist
  exact ⟨String.toList_inj.mp hkey, String.toList_inj.mp hvalue⟩

/-- A map name that is also the name of an array: the map leads to arrays, and the items are maps.
-/
theorem mapName_eq_arrayName {key value item : String} (hk : ProperName key)
    (h : "[" ++ key ++ "]" ++ value = item ++ "[]") :
    ∃ rest, value = rest ++ "[]" ∧ item = "[" ++ key ++ "]" ++ rest := by
  have hlist : ('[' :: key.toList ++ [']']) ++ value.toList = item.toList ++ ['[', ']'] := by
    simpa using congrArg String.toList h
  rcases List.append_eq_append_iff.mp hlist with ⟨rest, hitem, hvalue⟩ | ⟨c, hkey, hc⟩
  · -- The suffix lies within the value.
    refine ⟨String.ofList rest, String.toList_inj.mp ?_, String.toList_inj.mp ?_⟩
    · simpa using hvalue
    · simpa using hitem
  · -- Otherwise it would begin within the key, which would then end with an open bracket.
    rcases c with _ | ⟨x, _ | ⟨y, c⟩⟩
    · refine ⟨"", String.toList_inj.mp ?_, String.toList_inj.mp ?_⟩
      · simpa using hc.symm
      · simpa using hkey.symm
    · have hlast := (List.append_inj' hkey rfl).2
      cases hlast
      cases hc
    · obtain ⟨rfl, rfl, rfl, -⟩ : '[' = x ∧ ']' = y ∧ c = [] ∧ value = "" := by simpa using hc
      have hopen : '[' :: key.toList = item.toList ++ ['['] := by
        have hsplit : ('[' :: key.toList) ++ [']'] = (item.toList ++ ['[']) ++ [']'] := by
          simpa using hkey
        exact (List.append_inj' hsplit rfl).1
      -- The key is not empty, so its own last character is that bracket.
      obtain ⟨hne, hbalanced⟩ := hk
      rcases List.eq_nil_or_concat key.toList with hnil | ⟨front, last, hconcat⟩
      · exact absurd (String.toList_inj.mp hnil) hne
      · rw [hconcat, List.concat_eq_append] at hopen hbalanced
        have hopen : ('[' :: front) ++ [last] = item.toList ++ ['['] := hopen
        have hlast := (List.append_inj' hopen rfl).2
        cases hlast
        exact absurd hbalanced Balanced.not_append_open

end Sema
