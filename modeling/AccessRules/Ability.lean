import AccessRules.Rule

/-! Abilities: the rules of one actor, in the order in which they were registered. The newest rule
that decides a check settles it, and what no rule decides is denied. A check on a bare type cannot
look at conditions, so `verdict` says whether the answer stands for every subject of the type or an
item is needed. -/

namespace AccessRules

/-- The rules of an actor. -/
structure Ability where
  /-- In the order of registration: later rules come before earlier ones. -/
  rules : List Rule
  /-- Whether every rule counts as one without a condition. -/
  skipConditions : Bool

/-- The answer that a type alone gives. -/
inductive Verdict where
  /-- No rule is about the action and type. -/
  | noRules
  /-- The answer for every subject of the type. -/
  | settled (allowed : Bool)
  /-- The answer may depend on the subject. -/
  | needsItem
  deriving DecidableEq

namespace Ability

/-- The rules about a type, newest first, each with its place in the order of registration. -/
def concerning (a : Ability) (type : String) : List (Rule × Nat) :=
  (a.rules.zipIdx.filter fun entry => entry.1.concerns type).reverse

/-- The rules about an action on a type, newest first, with their places. -/
def applicable (a : Ability) (action type : String) : List (Rule × Nat) :=
  (a.concerning type).filter fun entry => entry.1.appliesTo action type

/-- The rules about an action on a type, newest first. -/
def rulesFor (a : Ability) (action type : String) : List Rule :=
  (a.applicable action type).map (·.1)

/-- The newest rule that decides the check, with its place. -/
def deciding? (a : Ability) (action : String) (subject : Subject) : Option (Rule × Nat) :=
  (a.applicable action subject.type).find? fun entry => entry.1.decides subject a.skipConditions

/-- The rule that decides the check. -/
def decidingRule? (a : Ability) (action : String) (subject : Subject) : Option Rule :=
  (a.deciding? action subject).map (·.1)

/-- Whether the actor may do the action on the subject. -/
def can (a : Ability) (action : String) (subject : Subject) : Bool :=
  (a.decidingRule? action subject).any (·.effect == .allow)

/-- Whether the actor may not do the action on the subject. -/
def cannot (a : Ability) (action : String) (subject : Subject) : Bool := !a.can action subject

/-- The verdict of rules given newest first, after conditioned rules that allow or deny. The first
rule without a condition settles it unless a newer one could say otherwise for some subject. -/
def scan (allowed denied : Bool) : List Rule → Verdict
  | [] => if allowed then .needsItem else .settled false
  | r :: rest =>
    match r.condition, r.effect with
    | some _, .allow => scan true denied rest
    | some _, .deny => scan allowed true rest
    | none, .allow => if denied then .needsItem else .settled true
    | none, .deny => if allowed then .needsItem else .settled false

/-- What the type alone says about an action. -/
def verdict (a : Ability) (action type : String) : Verdict :=
  match a.rulesFor action type with
  | [] => .noRules
  | newest :: older =>
    if a.skipConditions then .settled (newest.effect == .allow)
    else scan false false (newest :: older)

theorem rulesFor_eq (a : Ability) (action type : String) :
    a.rulesFor action type = (a.rules.filter (·.appliesTo action type)).reverse := by
  have concerns : ∀ entry : Rule × Nat,
      (entry.1.appliesTo action type && entry.1.concerns type) = entry.1.appliesTo action type := by
    intro entry
    simp only [Rule.appliesTo]
    cases entry.1.concerns type <;> simp
  have keep : ∀ (rules : List Rule) (n : Nat),
      ((rules.zipIdx n).filter fun entry => entry.1.appliesTo action type).map (·.1) =
        rules.filter (·.appliesTo action type) := by
    intro rules
    induction rules with
    | nil => intro n; rfl
    | cons r rest ih =>
      intro n
      simp only [List.zipIdx_cons, List.filter_cons]
      split <;> simp [ih]
  simp only [rulesFor, applicable, concerning, List.filter_reverse, List.filter_filter,
    List.map_reverse, concerns, keep]

theorem decidingRule?_eq (a : Ability) (action : String) (subject : Subject) :
    a.decidingRule? action subject =
      (a.rulesFor action subject.type).find? (·.decides subject a.skipConditions) := by
  simp only [decidingRule?, deciding?, rulesFor, List.find?_map]
  rfl

end Ability

end AccessRules
