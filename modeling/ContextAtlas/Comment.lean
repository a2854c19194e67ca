/-
# Comments

A document may hold line comments, from `//` up to the end of the line, and block comments, from
`/*` to the next `*/` or to the end of the text. Line comments go first, over the whole text, and
block comments after them, so a `//` inside a block comment still cuts its line. String literals
are not special here.

* `withoutLineComments` and `withoutBlockComments`: the two passes, each one walk over the text.
* `stripComments`: both, in that order.
-/

namespace ContextAtlas

/-! ## 1. The two passes -/

/-- Removes the line comments of a text that starts inside one (`true`) or outside (`false`).
The line feed that ends a comment stays. -/
def withoutLineComments : Bool → List Char → List Char
  | _, [] => []
  | true, c :: r =>
    if c = '\n' then c :: withoutLineComments false r else withoutLineComments true r
  | false, '/' :: '/' :: r => withoutLineComments true r
  | false, c :: r => c :: withoutLineComments false r

/-- Removes the block comments of a text that starts inside one (`true`) or outside (`false`). -/
def withoutBlockComments : Bool → List Char → List Char
  | _, [] => []
  | true, '*' :: '/' :: r => withoutBlockComments false r
  | true, _ :: r => withoutBlockComments true r
  | false, '/' :: '*' :: r => withoutBlockComments true r
  | false, c :: r => c :: withoutBlockComments false r

/-! ## 2. Stripping a document -/

/-- The text without its comments. -/
def stripComments (text : List Char) : List Char :=
  withoutBlockComments false (withoutLineComments false text)

end ContextAtlas
