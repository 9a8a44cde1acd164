/-
# Trees written out

The constructor form of a tree names every node and every part of it, so that
two trees have the same form only if they are the same.
-/

import Typographical.Formula

namespace Typographical

/-- The constructor form of a variable. -/
def Variable.inspect (v : Variable) : String :=
  s!"Variable(name={Text.quoted v.name})"

/-- The constructor form of a term. -/
def Term.inspect : Term → String
  | .numeral n => s!"Numeral(value={n})"
  | .var v => v.inspect
  | .successor q t => s!"Successor(quantity={q}, term={t.inspect})"
  | .compound op x y =>
    s!"CompoundTerm(kind={Text.quoted op.word}, left={x.inspect}, right={y.inspect})"

/-- The constructor form of a formula. -/
def Formula.inspect : Formula → String
  | .atom x y => s!"Atom(left={x.inspect}, right={y.inspect})"
  | .negation F => s!"Negation(formula={F.inspect})"
  | .compound c F G =>
    s!"Compound(kind={Text.quoted c.word}, left={F.inspect}, right={G.inspect})"
  | .quantification q v F =>
    s!"Quantification(kind={Text.quoted q.word}, variable={v.inspect}, formula={F.inspect})"

end Typographical
