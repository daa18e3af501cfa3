import Mathlib.Data.List.Nodup
import ProofPuzzles.Proofs.Search.Progress
import ProofPuzzles.Proofs.Search.Support
import ProofPuzzles.Proofs.Validation.Building

/-! # The proofs that the search finds

The support of the goal is stated line by line. It is a derivation that starts from the premises,
so the check accepts the lines, and each of them is used on the way to the goal.
-/

namespace ProofPuzzles

variable {premises : List Statement} {goal : Statement} {f : Formula}

/-- The line cites the number for a rule of inference. -/
def ProofLine.Cites (line : ProofLine) (number : Int) : Prop :=
  ∃ rule references, line.justification = .inference rule references ∧ number ∈ references

/-- A proof of the goal that states the premises and then only what the goal needs. -/
structure TightProof (premises : List Statement) (goal : Statement) (given derived : Proof) :
    Prop where
  accepted : (given ++ derived).validate = .valid
  exact : given.map (·.statement) = (premises.filter (·.formula?.isSome)).eraseDupsBy
    fun s t => s.identity == t.identity
  granted : ∀ line ∈ given, line.justification = .premise
  inferred : ∀ line ∈ derived, ∃ rule references, line.justification = .inference rule references
  distinct : ((given ++ derived).map (·.statement.identity)).Nodup
  reached : ∃ line ∈ given ++ derived, line.statement.identity = goal.identity
  last : (∀ p ∈ premises, p.identity ≠ goal.identity) →
    ∃ line, (given ++ derived).getLast? = some line ∧ line.statement.identity = goal.identity
  used : ∀ before line after, derived = before ++ line :: after →
    line.statement.identity ≠ goal.identity → ∃ later ∈ after, later.Cites line.number

namespace Derivation

variable {given : List Wff} {derivation : Derivation}

/-- The entry that an application brings. -/
def entryOf (a : Application) : Derived := ⟨a.conclusion, some a⟩

theorem formulas_entryOf (given : List Wff) (applications : List Application) :
    formulas (ofGiven given ++ applications.map entryOf) =
      given.map Wff.formula ++ applications.map (·.conclusion.formula) := by
  rw [formulas_append, formulas_ofGiven, formulas, List.map_map]
  rfl

/-- A grown derivation lists its applications, each after those that it rests on. -/
theorem Grown.exists_applications (grown : Grown given derivation) :
    ∃ applications : List Application, derivation = ofGiven given ++ applications.map entryOf ∧
      ∀ before a after, applications = before ++ a :: after →
        a.Citable (given.map Wff.formula ++ before.map (·.conclusion.formula)) := by
  induction grown with
  | start => exact ⟨[], (List.append_nil _).symm, fun before a after split => by simp at split⟩
  | @derive derivation a grown fresh citable ih =>
      obtain ⟨applications, rfl, earlier⟩ := ih
      rw [formulas_entryOf] at citable
      exact ⟨applications ++ [a], by simp [entryOf], splits_append_singleton.mpr ⟨earlier, citable⟩⟩

/-- The applications behind a goal, in an order in which they can be taken. -/
structure Plan (given : List Wff) (f : Formula) (applications : List Application) : Prop where
  distinct : (given.map Wff.formula ++ applications.map (·.conclusion.formula)).Nodup
  earlier : ∀ before a after, applications = before ++ a :: after →
    a.Citable (given.map Wff.formula ++ before.map (·.conclusion.formula))
  settled : f ∈ given.map Wff.formula ++ applications.map (·.conclusion.formula)
  tight : Tight [f] (applications.map entryOf)

theorem Grown.exists_plan (grown : Grown given derivation) (known : f ∈ derivation.formulas)
    (distinct : (given.map Wff.formula).Nodup) :
    ∃ applications, derivation.support f = applications.map entryOf ∧
      Plan given f applications := by
  have collects := grown.support known
  obtain ⟨applications, split, earlier⟩ := collects.grown.exists_applications
  have entries : derivation.support f = applications.map entryOf := List.append_cancel_left split
  have settled := collects.settled List.mem_cons_self
  have nodup := collects.grown.nodup distinct
  rw [split, formulas_entryOf] at settled nodup
  exact ⟨applications, entries, nodup, earlier, settled, entries ▸ collects.tight⟩

/-- What a plan derives for a goal that is not given, it derives last. -/
theorem Plan.exists_last {applications : List Application} (plan : Plan given f applications)
    (outside : f ∉ given.map Wff.formula) :
    ∃ front a, applications = front ++ [a] ∧ a.conclusion.formula = f := by
  rcases List.eq_nil_or_concat applications with rfl | ⟨front, a, rfl⟩
  · have settled := plan.settled
    rw [List.map_nil, List.append_nil] at settled
    exact absurd settled outside
  · have tight := plan.tight
    rw [List.concat_eq_append, List.map_append] at tight
    exact ⟨front, a, List.concat_eq_append, List.mem_singleton.mp tight.last⟩

end Derivation

namespace Proof

open ProofPuzzles.Derivation

/-- How the proof of a goal states what an application derives. The goal is stated as given. -/
def stepFor (goal : Statement) (f : Formula) (a : Application) : ProofStep :=
  ⟨if a.conclusion.formula = f then goal else a.conclusion.statement, a⟩

theorem stepFor_reads (reads : goal.formula? = some f) (a : Application) :
    (stepFor goal f a).statement.formula? = some a.conclusion.formula := by
  unfold stepFor
  split
  · rename_i same
    rw [same]
    exact reads
  · exact a.conclusion.reads

theorem filterMap_stepFor (reads : goal.formula? = some f) (applications : List Application) :
    (applications.map (stepFor goal f)).filterMap (·.statement.formula?) =
      applications.map (·.conclusion.formula) := by
  rw [List.filterMap_map, ← List.filterMap_eq_map]
  exact List.filterMap_congr fun a _ => stepFor_reads reads a

/-- When the turn of a step comes, all that it rests on has been stated. -/
theorem ready_of_plan {given : List Wff} {applications : List Application}
    (reads : goal.formula? = some f) (plan : Plan given f applications) :
    ∀ before step after, applications.map (stepFor goal f) = before ++ step :: after →
      step.Ready ((ofPremises given).formulas ++ before.filterMap (·.statement.formula?)) := by
  intro before step after split
  obtain ⟨first, others, rfl, rfl, rest⟩ := List.map_eq_append_iff.mp split
  obtain ⟨a, last, rfl, rfl, rfl⟩ := List.map_eq_cons_iff.mp rest
  rw [formulas_ofPremises, filterMap_stepFor reads]
  have citable := plan.earlier first a last rfl
  exact ⟨⟨_, stepFor_reads reads a, citable.schema⟩, citable.known⟩

/-- Where each derived statement is needed, each of their lines is cited. -/
theorem cited_of_tight {proof derived : Proof} {applications : List Application}
    (reads : goal.formula? = some f)
    (built : proof.extend (applications.map (stepFor goal f)) = proof ++ derived)
    (distinct : (formulas (proof ++ derived)).Nodup)
    (tight : Tight [f] (applications.map entryOf)) :
    ∀ before line after, derived = before ++ line :: after →
      line.statement.formula? ≠ some f → ∃ later ∈ after, later.Cites line.number := by
  induction applications generalizing proof derived with
  | nil =>
      have empty : derived = [] := List.self_eq_append_right.mp built
      subst empty
      intro before line after split
      simp at split
  | cons a applications ih =>
      -- the line of the first application joins the proof, and the others extend that
      rw [List.map_cons, extend_cons] at built
      obtain ⟨rest, longer, -, -⟩ := extend_eq_append (proof ++ [proof.lineFor (stepFor goal f a)])
        (applications.map (stepFor goal f))
      rw [longer, List.append_assoc] at built
      obtain rfl := List.append_cancel_left built
      intro before line after split other
      cases before with
      | nil =>
          obtain ⟨rfl, rfl⟩ := List.cons.inj split
          have states : (proof.lineFor (stepFor goal f a)).statement.formula? =
            some a.conclusion.formula := stepFor_reads reads a
          rcases tight.1 with root | ⟨e, member, b, origin, p, cited, same⟩
          · have wanted : a.conclusion.formula = f := List.mem_singleton.mp root
            rw [states, wanted] at other
            exact absurd rfl other
          · obtain ⟨c, later, rfl⟩ := List.mem_map.mp member
            cases origin
            obtain ⟨part, start, initial, there⟩ := exists_lineFor longer
              (List.mem_map_of_mem later)
            refine ⟨_, there, _, _, rfl, List.mem_map.mpr ⟨p, cited, ?_⟩⟩
            have inside := start.subset (List.mem_append_right _ (List.mem_singleton_self _))
            rw [same]
            refine numberOf_eq (distinct.sublist ?_) inside states
            rw [List.append_assoc] at initial
            exact initial.sublist.filterMap _
      | cons first before =>
          obtain ⟨rfl, rfl⟩ := List.cons.inj split
          rw [← List.append_assoc] at distinct
          exact ih longer distinct tight.2 before line after rfl other

end Proof

open ProofPuzzles.Derivation

/-- A found proof takes the steps of a plan after it has stated the premises. -/
theorem prove_eq_extend {limits : SearchLimits} {proof : Proof}
    (h : prove premises goal limits = some proof) :
    ∃ f applications, goal.formula? = some f ∧ Plan (givenWffs premises) f applications ∧
      proof = (Proof.ofPremises (givenWffs premises)).extend
        (applications.map (Proof.stepFor goal f)) := by
  rw [prove] at h
  split at h
  · rename_i f derivation reads found
    obtain ⟨g, same, grown, known⟩ := search_spec found
    rw [reads] at same
    cases same
    obtain ⟨applications, entries, plan⟩ := grown.exists_plan known (nodup_givenWffs premises)
    refine ⟨f, applications, reads, plan, ?_⟩
    rw [← Option.some.inj h, entries, Proof.extend, List.foldl_map, List.foldl_map]
    rfl
  · cases h

/-- There is a proof wherever the search succeeds. -/
theorem exists_prove {limits : SearchLimits} (reads : goal.formula? = some f)
    (found : (search premises goal limits).isSome) :
    ∃ proof, prove premises goal limits = some proof := by
  obtain ⟨derivation, searched⟩ := Option.isSome_iff_exists.mp found
  rw [prove, reads, searched]
  exact ⟨_, rfl⟩

/-- What the search finds is accepted, states the premises and then nothing that is not needed. -/
theorem prove_tight {limits : SearchLimits} {proof : Proof}
    (h : prove premises goal limits = some proof) :
    ∃ given derived, proof = given ++ derived ∧ TightProof premises goal given derived := by
  obtain ⟨f, applications, reads, plan, rfl⟩ := prove_eq_extend h
  have counted := (Proof.counted_ofPremises (givenWffs premises)).extend
    (Proof.ready_of_plan reads plan)
  have formulas := Proof.formulas_extend (Proof.ofPremises (givenWffs premises))
    (applications.map (Proof.stepFor goal f))
  rw [Proof.formulas_ofPremises, Proof.filterMap_stepFor reads] at formulas
  obtain ⟨derived, built, statements, inferred⟩ := Proof.extend_eq_append
    (Proof.ofPremises (givenWffs premises)) (applications.map (Proof.stepFor goal f))
  rw [built] at counted formulas
  refine ⟨_, derived, built, ?_⟩
  have states : ∀ {s : Statement}, s.formula? = some f → s.identity = goal.identity := by
    intro s same
    rw [Statement.identity_eq same, Statement.identity_eq reads]
  exact {
    accepted := counted.valid
    exact := by rw [Proof.statements_ofPremises, map_statement_givenWffs]
    granted := Proof.premise_of_mem_ofPremises
    inferred := inferred
    distinct := by
      have wellBuilt := Proof.validate_eq_valid_iff_wellBuilt.mp counted.valid
      rw [Proof.map_identity_eq wellBuilt.wellFormed, formulas]
      exact List.Nodup.map (fun _ _ same => Identity.formula.inj same) plan.distinct
    reached := by
      have settled := plan.settled
      rw [← formulas] at settled
      obtain ⟨line, member, same⟩ := List.mem_filterMap.mp settled
      exact ⟨line, member, states same⟩
    last := by
      intro other
      have outside : f ∉ (givenWffs premises).map Wff.formula := by
        intro given
        obtain ⟨w, member, rfl⟩ := List.mem_map.mp given
        have premise := mem_wellFormed.mp ((firstsBy_sublist _ _).subset member)
        exact other _ premise (states w.reads)
      obtain ⟨front, a, rfl, wanted⟩ := plan.exists_last outside
      rw [List.map_append, List.map_append] at statements
      obtain ⟨init, final, rfl, -, last⟩ := List.map_eq_append_iff.mp statements
      obtain ⟨line, rfl, same⟩ := List.map_eq_singleton_iff.mp last
      refine ⟨line, by simp, states ?_⟩
      rw [same, Proof.stepFor_reads reads, wanted]
    used := fun before line after split other =>
      Proof.cited_of_tight reads built (formulas ▸ plan.distinct) plan.tight before line after split
        fun same => other (states same) }

/-- One detachment, from premises one of which is repeated and one of which reads as nothing. -/
theorem prove_tight_detachment :
    let p := Formula.letter ⟨15⟩
    let q := Formula.letter ⟨16⟩
    let premises : List Statement :=
      [.ofFormula (.impl p q), .ofTiles [], .ofFormula p, .ofFormula p]
    ∃ proof, prove premises (.ofFormula q) {} = some proof ∧
      ∃ given derived, proof = given ++ derived ∧
        TightProof premises (.ofFormula q) given derived := by
  intro p q premises
  have given : givenWffs premises = [.ofFormula (.impl p q), .ofFormula p] := by
    rw [givenWffs, firstsBy_eq_eraseDupsBy]
    decide +kernel
  have available : List.Subperm [.ofFormula (.impl p q), .ofFormula p] (givenWffs premises) := by
    rw [given]
  have closed : InferenceRule.modusPonens ∈ Search.closedRules := by decide
  have found : (search premises (.ofFormula q) {}).isSome :=
    search_isSome_of_schema rfl available (.modusPonens p q) closed (by decide) (by decide)
  obtain ⟨proof, proved⟩ := exists_prove rfl found
  exact ⟨proof, proved, prove_tight proved⟩

end ProofPuzzles
