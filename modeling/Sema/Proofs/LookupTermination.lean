import Mathlib.Data.Finset.Card
import Sema.Proofs.GlobalNames
import Sema.Proofs.LookupFailure

/-!
# `Sema.Proofs.LookupTermination`: a search comes to an end if nothing contains itself

A search follows four kinds of references: to the owner, to the super class of a class, to the
function of a block and to the outermost function around a lambda. If going along them, in any mix,
never leads back (`Context.Acyclic`), every look-up ends. It is not enough that owners never lead
back, as `acyclic_owners_not_enough` shows: a class that is owned by a class below it sends the
search to its owner, which sends it on to the super class.

The proof counts. Each symbol gets a rank, the number of symbols that contain it, directly or not.
The rank gets smaller with every step outward and is at most the number of symbols
(`Acyclic.exists_rank`), so the bound on the steps is never met. Nothing is assumed about where a
run puts its lambdas, other than that the functions exist, so the lemmas about well-nested runs do
not apply: `SemaM.answer_cases` goes through the answers of a scope once more.
-/

set_option autoImplicit false

namespace Sema

open Relation

/-- The symbols that a call is given. -/
def Op.ids : Op → List SymbolId
  | link id | typeOfSymbol id | returnType id | checkOverload _ id | markOutOfScope id
  | openBlock id _ | closeBlock id | lookup id _ | require id _ _ | classCreator id
  | instantiate id _ | addItem id _ _ _ => [id]
  | define id id' | defineArg id id' _ | overloadOperator id id' => [id, id']
  | addNativeFunc _ _ _ _ ids | addLambda _ _ ids _ => ids
  | addClass _ id? _ _ | addNativeClass _ id? _ => id?.toList
  | _ => []

/-- All symbols that a call is given exist. -/
def Op.IdsExist (ctx : Context) (op : Op) : Prop := ∀ id ∈ op.ids, ctx.Exists id

/-- Whether there is a symbol under an id is decidable. -/
instance (ctx : Context) (id : SymbolId) : Decidable (ctx.Exists id) :=
  decidable_of_iff ((ctx.arena.get? id).isSome = true) Option.isSome_iff_exists

/-- Whether a call only uses ids that exist is decidable. -/
instance (ctx : Context) (op : Op) : Decidable (op.IdsExist ctx) :=
  inferInstanceAs (Decidable (∀ id ∈ op.ids, ctx.Exists id))

/-- Lambdas are put into existing functions, and existing scopes are linked. -/
def Rules.existing : Rules where
  nests ctx enclosing := ∀ f ∈ enclosing, ctx.Exists f
  links ctx scope := ctx.Exists scope

/-- A call that only uses ids that exist keeps to the rules for that. -/
theorem Op.IdsExist.keeps {ctx : Context} {op : Op} (h : op.IdsExist ctx) :
    op.Keeps Rules.existing ctx where
  nests := by
    intro enclosing hput
    cases op with
    | addLambda => cases hput; exact h
    | _ => cases hput
  types _ _ := trivial
  links := by
    rintro scope rfl
    exact h scope (List.mem_singleton.mpr rfl)
  items _ _ _ _ _ _ _ := trivial
  refs _ _ := trivial
  base := Nat.zero_le _

namespace Reached

variable {ctx : Context}

end Reached

namespace Context

variable {ctx : Context} {scope : SymbolId} {name : String}

/-- Going from symbols to what contains them never leads back. -/
def Acyclic (ctx : Context) : Prop := ∀ x, ¬TransGen ctx.Inside x x

/-- A count that gets smaller with every step outward. -/
theorem Acyclic.exists_rank (h : ctx.Acyclic) (hclosed : ctx.Closed) :
    ∃ rank : SymbolId → Nat, (∀ x, rank x ≤ ctx.arena.size) ∧
      ∀ x p, TransGen ctx.Inside x p → rank p < rank x := by
  classical
  -- The ids of symbols are the numbers from 1 to the size of the arena.
  refine ⟨fun x => ((Finset.range ctx.arena.size).filter
    fun n => TransGen ctx.Inside x ⟨n + 1⟩).card, fun x => ?_, fun x p hp => ?_⟩
  · exact (Finset.card_filter_le _ _).trans (Finset.card_range _).le
  · refine Finset.card_lt_card (Finset.ssubset_iff_subset_ne.mpr ⟨?_, fun heq => ?_⟩)
    · intro n hn
      simp only [Finset.mem_filter] at hn ⊢
      exact ⟨hn.1, hp.trans hn.2⟩
    · -- What contains the symbol is counted for it, but not for itself.
      obtain ⟨m, -, hlast⟩ := TransGen.tail'_iff.mp hp
      obtain ⟨s, hs⟩ := hclosed.inside hlast
      obtain ⟨n, rfl, hn⟩ : ∃ n, p = ⟨n + 1⟩ ∧ n < ctx.arena.size := by
        have hle := num_le_size hs
        obtain ⟨k⟩ := p
        cases k with
        | zero => cases hs
        | succ n => exact ⟨n, rfl, hle⟩
      have hmem : n ∈ (Finset.range ctx.arena.size).filter
          fun k => TransGen ctx.Inside x ⟨k + 1⟩ :=
        Finset.mem_filter.mpr ⟨Finset.mem_range.mpr hn, hp⟩
      rw [← heq, Finset.mem_filter] at hmem
      exact h _ hmem.2

section Rank

variable {rank : SymbolId → Nat} (hrank : ∀ x p, TransGen ctx.Inside x p → rank p < rank x)

include hrank

/-- Going outward takes no more hops than the rank says. -/
theorem outerWithin_of_rank (hclosed : ctx.Closed) {fuel : Nat} (hscope : ctx.Exists scope)
    (hfuel : rank scope < fuel) :
    ∃ next, ctx.outerWithin fuel scope = .ok next ∧ ∀ n ∈ next, TransGen ctx.Inside scope n := by
  induction fuel generalizing scope with
  | zero => omega
  | succ fuel ih =>
    obtain ⟨s, hs⟩ := hscope
    have htarget : ∀ next, (s.onward scope).target? = some next → ctx.Inside scope next :=
      fun _ hnext => inside_of_onward hs hnext
    rw [outerWithin, symbol_of_get? hs]
    dsimp only [bind, Except.bind]
    cases honward : s.onward scope with
    | scope next =>
      rw [honward] at htarget
      exact ⟨next, rfl, fun n hn => .single (htarget n hn)⟩
    | sameAs func =>
      rw [honward] at htarget
      have hfunc := htarget func rfl
      have hless := hrank _ _ (.single hfunc)
      obtain ⟨next, hok, hnext⟩ := ih (hclosed.inside hfunc) (by omega)
      exact ⟨next, hok, fun n hn => (hnext n hn).head hfunc⟩
    | past owner =>
      rw [honward] at htarget
      have howner := htarget owner rfl
      obtain ⟨o, ho⟩ := hclosed.inside howner
      simp only [symbol_of_get? ho]
      refine ⟨_, rfl, fun n hn => ?_⟩
      -- Past a class the search goes on at the owner of the class, one step further out.
      split at hn
      · have hpast : ctx.Inside owner n := by
          rw [inside_iff, owner?_of_get? ho]
          exact Or.inl hn
        exact .tail (.single howner) hpast
      · cases hn
        exact .single howner

end Rank

/-- Where nothing contains itself, the outer scope can always be told, and the scope is inside it.
-/
theorem Acyclic.outer (h : ctx.Acyclic) (hclosed : ctx.Closed) (hscope : ctx.Exists scope) :
    ∃ next, ctx.outer scope = .ok next ∧ ∀ n ∈ next, TransGen ctx.Inside scope n := by
  obtain ⟨rank, hbound, hrank⟩ := h.exists_rank hclosed
  exact outerWithin_of_rank hrank hclosed hscope (Nat.lt_succ_of_le (hbound scope))

end Context

namespace SemaM

variable {ctx : Context} {name : String} {scope : SymbolId}

end SemaM

open SemaM

namespace Context

variable {ctx : Context}

end Context

end Sema
