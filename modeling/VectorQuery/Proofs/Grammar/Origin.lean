import VectorQuery.Proofs.Statement.Terminator

/-! Where the result of a run comes from. Every rule works on the tokens it was given: what it
leaves is among them, and so is the token that a fault shows. -/
namespace VectorQuery.Grammar

variable {α : Type} {levels : Nat} {all tokens rest : List Token}

/-- The same tokens on both sides, all of them among the given ones. -/
def among (all : List Token) : Coupling where
  tokens left right := left = right ∧ left ⊆ all
  heads token token' := token = token' ∧ token ∈ all
  levels fewer more := fewer = more
  faults fault fault' := fault = fault' ∧ ∀ token ∈ fault.token?, token ∈ all
  escapes _ := False
  alike := fun heads => Token.alike_of_eq heads.1
  split := by
    rintro left _ ⟨rfl, within⟩
    cases left with
    | nil => exact .inl ⟨rfl, rfl⟩
    | cons token rest =>
      obtain ⟨member, behind⟩ := List.cons_subset.mp within
      exact .inr ⟨token, token, rest, rest, rfl, rfl, ⟨rfl, member⟩, fun _ => ⟨rfl, behind⟩⟩
  unexpected := by
    rintro token _ ⟨rfl, member⟩
    refine ⟨rfl, fun shown same => ?_⟩
    obtain rfl := Option.some.inj same
    exact member
  endOfInput := fun _ => ⟨rfl, nofun⟩
  tooDeep := by
    rintro left _ - ⟨rfl, within⟩
    exact ⟨rfl, fun shown first => within (List.mem_of_mem_head? first)⟩
  escape := by
    intro levels' left right unequal
    contradiction
  deeper := fewer_of_same

theorem among_passes : (among all).Passes := by
  rintro token _ rest _ ⟨same, within⟩
  obtain ⟨rfl, rfl⟩ := List.cons.inj same
  exact ⟨rfl, (List.cons_subset.mp within).2⟩

/-- A statement is refused at one of its tokens, or at its end. -/
theorem token_of_refused {fault : Fault} (refused : statement levels tokens = .error fault) :
    ∀ token ∈ fault.token?, token ∈ tokens := by
  have same : (among tokens).levels levels levels := rfl
  have start : (among tokens).tokens tokens tokens := ⟨rfl, List.Subset.refl tokens⟩
  have run := statement_agree among_passes same start
  rw [refused] at run
  cases run with
  | fault named => exact named.2
  | escape escapes => exact escapes.elim

end VectorQuery.Grammar
