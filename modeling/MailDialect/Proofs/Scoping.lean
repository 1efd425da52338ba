import MailDialect.Template.Reader

/-!
# Scopes as a matter of their own

The scope of a path depends on its base name and on the loops around it, so a template can be given
other scopes without being read again. Main statement: giving scopes anew forgets the scopes that
were there (`Template.rescope_rescope`).
-/

namespace MailDialect

/-- The scope of a base name inside the loops with given variables, innermost first. -/
abbrev Scoping := List Text → Text → Scope

/-- Scopes as reading gives them under a namespace. -/
def Scoping.lexical (ns : Text) : Scoping := fun bound name => Reader.Env.resolve ⟨[], ns, bound⟩ name

/-- No difference is made between scopes. -/
def Scoping.blind : Scoping := fun _ _ => .param

def Path.rescope (f : Text → Scope) (p : Path) : Path := ⟨p.base, p.fields, f p.base⟩

def Expr.rescope (f : Text → Scope) : Expr → Expr
  | .path p => .path (p.rescope f)
  | .literal l => .literal l
  | .compare a op b => .compare (a.rescope f) op (b.rescope f)
  | .logical a op b => .logical (a.rescope f) op (b.rescope f)
  | .not e => .not (e.rescope f)
  | .group e => .group (e.rescope f)
  | .filtered e fs => .filtered (e.rescope f) fs

def LoopSource.rescope (f : Text → Scope) : LoopSource → LoopSource
  | .collection p fs => .collection (p.rescope f) fs
  | .range bounds => .range bounds

def Variable.rescope (f : Text → Scope) (v : Variable) : Variable := { v with path := v.path.rescope f }

mutual

/-- A node with the scopes that `f` gives its paths inside the loops `bound`. -/
def Node.rescope (f : Scoping) (bound : List Text) : Node → Node
  | .text raw => .text raw
  | .comment raw => .comment raw
  | .var v => .var (v.rescope (f bound))
  | .ifBlock c tag body more =>
    .ifBlock (c.rescope (f bound)) tag (Template.rescope f bound body) (Alternative.rescope f bound more)
  | .forBlock name source tag body =>
    .forBlock name (source.rescope (f bound)) tag (Template.rescope f (name :: bound) body)
  | .unsupported u => .unsupported u

def Alternative.rescope (f : Scoping) (bound : List Text) : Alternative → Alternative
  | .endif => .endif
  | .otherwise body => .otherwise (Template.rescope f bound body)
  | .elseif c tag body more =>
    .elseif (c.rescope (f bound)) tag (Template.rescope f bound body) (Alternative.rescope f bound more)

def Template.rescope (f : Scoping) (bound : List Text) : Template → Template
  | [] => []
  | n :: ns => n.rescope f bound :: Template.rescope f bound ns

end

/-- A template with all differences of scope taken away. -/
def Template.unscoped (t : Template) : Template := Template.rescope .blind [] t

theorem Path.rescope_rescope (f g : Text → Scope) (p : Path) : (p.rescope g).rescope f = p.rescope f := rfl

theorem Expr.rescope_rescope (f g : Text → Scope) (e : Expr) : (e.rescope g).rescope f = e.rescope f := by
  induction e <;> simp_all [Expr.rescope, Path.rescope_rescope]

theorem LoopSource.rescope_rescope (f g : Text → Scope) (s : LoopSource) :
    (s.rescope g).rescope f = s.rescope f := by
  cases s <;> rfl

mutual

theorem Node.rescope_rescope (f g : Scoping) (bound other : List Text) :
    ∀ n : Node, (n.rescope g other).rescope f bound = n.rescope f bound
  | .text _ => rfl
  | .comment _ => rfl
  | .var _ => rfl
  | .unsupported _ => rfl
  | .ifBlock c tag body more => by
    simp only [Node.rescope, Expr.rescope_rescope, Template.rescope_rescope, Alternative.rescope_rescope]
  | .forBlock name source tag body => by
    simp only [Node.rescope, LoopSource.rescope_rescope, Template.rescope_rescope]

theorem Alternative.rescope_rescope (f g : Scoping) (bound other : List Text) :
    ∀ a : Alternative, (a.rescope g other).rescope f bound = a.rescope f bound
  | .endif => rfl
  | .otherwise body => by simp only [Alternative.rescope, Template.rescope_rescope]
  | .elseif c tag body more => by
    simp only [Alternative.rescope, Expr.rescope_rescope, Template.rescope_rescope, Alternative.rescope_rescope]

/-- **Giving scopes anew forgets the scopes that were there.** -/
theorem Template.rescope_rescope (f g : Scoping) (bound other : List Text) :
    ∀ t : Template, Template.rescope f bound (Template.rescope g other t) = Template.rescope f bound t
  | [] => rfl
  | n :: ns => by simp only [Template.rescope, Node.rescope_rescope, Template.rescope_rescope]

end

end MailDialect
