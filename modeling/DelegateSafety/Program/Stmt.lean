import DelegateSafety.Program.Expr

/-! # Statements -/
namespace DelegateSafety

inductive StorageClass where
  | local | staticLocal | global
  deriving DecidableEq

structure VarDecl where
  name : String
  type : TypeRef
  storage : StorageClass
  init : Option Expr
  range : SourceRange

def VarDecl.hasStaticStorage (v : VarDecl) : Bool :=
  match v.storage with
  | .local => false
  | .staticLocal | .global => true

inductive Stmt where
  | expr (e : Expr)
  | block (body : List Stmt)
  | branch (cond : Expr) (yes : Stmt) (no : Option Stmt)
  | loop (cond : Expr) (body : Stmt)
  | ret (value : Option Expr)
  | decl (var : VarDecl)

namespace Stmt

/-- Statements nested directly in this one. -/
def children : Stmt → List Stmt
  | block body => body
  | branch _ yes no => yes :: no.toList
  | loop _ body => [body]
  | expr _ | ret _ | decl _ => []

/-- Expressions that belong to this statement and not to one nested in it. -/
def exprs : Stmt → List Expr
  | expr e => [e]
  | branch cond _ _ | loop cond _ => [cond]
  | ret value => value.toList
  | decl var => var.init.toList
  | block _ => []

mutual

/-- Every statement inside this one, itself first and in source order. -/
def walk : Stmt → List Stmt
  | expr e => [expr e]
  | block body => block body :: walkAll body
  | branch cond yes none => branch cond yes none :: walk yes
  | branch cond yes (some no) => branch cond yes (some no) :: (walk yes ++ walk no)
  | loop cond body => loop cond body :: walk body
  | ret value => [ret value]
  | decl var => [decl var]

def walkAll : List Stmt → List Stmt
  | [] => []
  | s :: rest => walk s ++ walkAll rest

end

theorem walkAll_eq_flatMap (ss : List Stmt) : walkAll ss = ss.flatMap walk := by
  induction ss with
  | nil => rfl
  | cons s rest ih => rw [walkAll, ih, List.flatMap_cons]

theorem walk_eq (s : Stmt) : s.walk = s :: s.children.flatMap walk := by
  unfold walk
  split <;> simp [children, walkAll_eq_flatMap]

theorem self_mem_walk (s : Stmt) : s ∈ s.walk := by
  rw [walk_eq]
  exact List.mem_cons_self

theorem walk_subset {s c : Stmt} (hc : c ∈ s.children) : c.walk ⊆ s.walk := by
  intro inner hInner
  rw [walk_eq s]
  exact List.mem_cons_of_mem _ (List.mem_flatMap.mpr ⟨c, hc, hInner⟩)

/-- Every expression anywhere inside this statement. -/
def allExprs (s : Stmt) : List Expr := s.walk.flatMap fun inner => inner.exprs.flatMap Expr.walk

/-- The variables declared anywhere inside this statement. -/
def locals (s : Stmt) : List VarDecl :=
  s.walk.filterMap fun
    | decl var => some var
    | _ => none

end Stmt

end DelegateSafety
