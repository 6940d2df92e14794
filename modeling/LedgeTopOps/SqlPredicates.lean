import Mathlib.Data.List.Basic

namespace LedgeTopOps.SqlPredicates

-- SQL's three truth values. A row satisfies a WHERE clause only at yes.
inductive Ternary where
  | yes | no | unknown
  deriving DecidableEq

def Ternary.ofBool : Bool → Ternary
  | true => .yes
  | false => .no

def Ternary.negate : Ternary → Ternary
  | .yes => .no
  | .no => .yes
  | .unknown => .unknown

def Ternary.or : Ternary → Ternary → Ternary
  | .yes,_ => .yes
  | _,.yes => .yes
  | .no,.no => .no
  | _,_ => .unknown

def Ternary.and : Ternary → Ternary → Ternary
  | .no,_ => .no
  | _,.no => .no
  | .yes,.yes => .yes
  | _,_ => .unknown

@[simp] theorem Ternary.ofBool_yes (b : Bool) : Ternary.ofBool b = .yes ↔ b = true := by cases b <;> simp [ofBool]
@[simp] theorem Ternary.ofBool_no (b : Bool) : Ternary.ofBool b = .no ↔ b = false := by cases b <;> simp [ofBool]
@[simp] theorem Ternary.or_yes (a b : Ternary) : a.or b = .yes ↔ a = .yes ∨ b = .yes := by
  cases a <;> cases b <;> simp [Ternary.or]
@[simp] theorem Ternary.and_yes (a b : Ternary) : a.and b = .yes ↔ a = .yes ∧ b = .yes := by
  cases a <;> cases b <;> simp [Ternary.and]
@[simp] theorem Ternary.negate_yes (a : Ternary) : a.negate = .yes ↔ a = .no := by cases a <;> simp [negate]

section
variable {ν : Type*} [DecidableEq ν]

-- column = ? for a bound value that is not NULL.
def equals (column : Option ν) (value : ν) : Ternary :=
  match column with
  | none => .unknown
  | some found => .ofBool (decide (found = value))

-- column IN (?,…). Over the empty list even NULL is not a member.
def member (column : Option ν) (values : List ν) : Ternary :=
  match column with
  | none => if values.isEmpty then .no else .unknown
  | some found => .ofBool (decide (found ∈ values))

@[simp] theorem equals_yes (column : Option ν) (value : ν) : equals column value = .yes ↔ column = some value := by
  cases column <;> simp [equals]

@[simp] theorem member_yes (column : Option ν) (values : List ν) :
    member column values = .yes ↔ ∃ found, column = some found ∧ found ∈ values := by
  cases column with
  | none => by_cases empty : values.isEmpty <;> simp [member,empty]
  | some => simp [member]

@[simp] theorem member_no (column : Option ν) (values : List ν) :
    member column values = .no ↔ values = [] ∨ ∃ found, column = some found ∧ found ∉ values := by
  cases column with
  | none | some found => cases values <;> simp [member]
end

-- A WHERE expression with positional placeholders. A fragment is SQL text the
-- caller supplies, with one placeholder of its own.
inductive Predicate (κ : Type*) where
  | constant (value : Bool)
  | isIn (column : κ) (count : Nat)
  | isNotIn (column : κ) (count : Nat)
  | equal (column : κ)
  | fragment (sql : String)
  | either (left right : Predicate κ)
  | both (left right : Predicate κ)
  | group (inner : Predicate κ)

section
variable {κ : Type*} (columnText : κ → String)

def placeholders (count : Nat) : String := ",".intercalate (List.replicate count "?")

def Predicate.text : Predicate κ → String
  | .constant true => "1=1"
  | .constant false => "0=1"
  | .isIn column count => columnText column++" IN ("++placeholders count++")"
  | .isNotIn column count => columnText column++" NOT IN ("++placeholders count++")"
  | .equal column => columnText column++"=?"
  | .fragment sql => sql
  | .either left right => left.text++" OR "++right.text
  | .both left right => left.text++" AND "++right.text
  | .group inner => "("++inner.text++")"
end

def Predicate.disjunction {κ : Type*} : Predicate κ → List (Predicate κ) → Predicate κ
  | first,[] => first
  | first,next :: rest => .either first (disjunction next rest)

-- What a row gives the database: its columns, and the value of a fragment for
-- the parameter bound to its placeholder.
structure Row (κ ν : Type*) where
  column : κ → Option ν
  fragment : String → ν → Ternary

variable {κ ν : Type*} [DecidableEq ν] (row : Row κ ν)

-- The truth value, and the bound values that the following placeholders get.
-- A placeholder beyond the bound values is NULL.
def Predicate.meaning : Predicate κ → List ν → Ternary × List ν
  | .constant value,values => (.ofBool value,values)
  | .isIn column count,values => (member (row.column column) (values.take count),values.drop count)
  | .isNotIn column count,values => ((member (row.column column) (values.take count)).negate,values.drop count)
  | .equal column,values => match values with
    | [] => (.unknown,[])
    | value :: rest => (equals (row.column column) value,rest)
  | .fragment sql,values => match values with
    | [] => (.unknown,[])
    | value :: rest => (row.fragment sql value,rest)
  | .either left right,values =>
    let first := left.meaning values
    let second := right.meaning first.2
    (first.1.or second.1,second.2)
  | .both left right,values =>
    let first := left.meaning values
    let second := right.meaning first.2
    (first.1.and second.1,second.2)
  | .group inner,values => inner.meaning values

def Predicate.satisfied (predicate : Predicate κ) (values : List ν) : Prop :=
  (predicate.meaning row values).1 = .yes

def Binds (predicate : Predicate κ) (own : List ν) (truth : Ternary) : Prop :=
  ∀ rest, predicate.meaning row (own++rest) = (truth,rest)

variable {row}

theorem binds_constant (value : Bool) : Binds row (.constant value) [] (.ofBool value) := fun _ => rfl

theorem binds_isIn (column : κ) (values : List ν) : Binds row (.isIn column values.length) values (member (row.column column) values) := by
  intro _; simp [Predicate.meaning]

theorem binds_isNotIn (column : κ) (values : List ν) : Binds row (.isNotIn column values.length) values (member (row.column column) values).negate := by
  intro _; simp [Predicate.meaning]

theorem binds_equal (column : κ) (value : ν) : Binds row (.equal column) [value] (equals (row.column column) value) :=
  fun _ => rfl

theorem binds_fragment (sql : String) (value : ν) : Binds row (.fragment sql) [value] (row.fragment sql value) :=
  fun _ => rfl

theorem Binds.either (first : Binds row left own truth) (second : Binds row right later other) :
    Binds row (.either left right) (own++later) (truth.or other) := by
  intro rest
  simp only [Predicate.meaning,List.append_assoc,first (later++rest),second rest]

theorem Binds.both (first : Binds row left own truth) (second : Binds row right later other) : Binds row (.both left right) (own++later) (truth.and other) := by
  intro rest
  simp only [Predicate.meaning,List.append_assoc,first (later++rest),second rest]

theorem Binds.group (inner : Binds row predicate own truth) : Binds row (.group predicate) own truth := inner

theorem Binds.satisfied (bound : Binds row predicate own truth) : predicate.satisfied row own ↔ truth = .yes := by
  have exact := bound []
  rw [List.append_nil] at exact
  rw [Predicate.satisfied,exact]

inductive Alternatives (row : Row κ ν) : List (Predicate κ) → List ν → Prop → Prop where
  | nil : Alternatives row [] [] False
  | cons (first : Binds row predicate own truth) (rest : Alternatives row predicates values holds) :
      Alternatives row (predicate :: predicates) (own++values) (truth = .yes ∨ holds)

theorem Alternatives.append (left : Alternatives row firsts values holds) (right : Alternatives row seconds others also) :
    Alternatives row (firsts++seconds) (values++others) (holds ∨ also) := by
  induction left with
  | nil => simpa using right
  | cons first _ ih =>
    rw [List.append_assoc,or_assoc]
    exact .cons first ih

theorem Alternatives.single (bound : Binds row predicate own truth) : Alternatives row [predicate] own (truth = .yes) := by
  simpa using Alternatives.cons bound .nil

-- An alternative that is pushed only under a condition.
def optional (present : Bool) (predicate : Predicate κ) (own : List ν) : List (Predicate κ) × List ν :=
  if present then ([predicate],own) else ([],[])

theorem Binds.optional (present : Bool) (bound : Binds row predicate own truth) :
    ∃ holds, Alternatives row (optional present predicate own).1 (optional present predicate own).2 holds ∧ (holds ↔ present ∧ truth = .yes) := by
  cases present with
  | true => exact ⟨_,.single bound,by simp⟩
  | false => exact ⟨_,.nil,by simp⟩

theorem Alternatives.disjunction (alternatives : Alternatives row (first :: rest) values holds) :
    ∃ truth, Binds row (.disjunction first rest) values truth ∧ (truth = .yes ↔ holds) := by
  generalize shape : first :: rest = predicates at alternatives
  induction alternatives generalizing first rest with
  | nil => cases shape
  | @cons predicate own truth predicates values holds bound tail ih =>
    cases shape
    cases predicates with
    | nil =>
      cases tail
      exact ⟨truth,by simpa [Predicate.disjunction] using bound,by simp⟩
    | cons =>
      obtain ⟨other,later,meaning⟩ := ih rfl
      exact ⟨truth.or other,bound.either later,by simp [meaning]⟩
end LedgeTopOps.SqlPredicates
