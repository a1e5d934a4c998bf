/-!
# `Text/Paint.lean` — text in the colours of a terminal

A colour is switched on before a text and off behind it. Escapes do not nest: painting
a painted text ends with the first switch that is met.
-/

set_option autoImplicit false

namespace StyleEngine

/-- How a text stands out. -/
inductive Paint where
  | green
  | yellow
  | cyan
  | dim
deriving DecidableEq

namespace Paint

/-- The codes that switch a paint on and off. -/
def codes : Paint → String × String
  | .green => ("32", "39")
  | .yellow => ("33", "39")
  | .cyan => ("36", "39")
  | .dim => ("2", "0")

/-- One switch. -/
def switch (code : String) : String :=
  "\x1b[" ++ code ++ "m"

/-- The painted text. -/
def apply (paint : Paint) (s : String) : String :=
  switch paint.codes.1 ++ s ++ switch paint.codes.2

end Paint

end StyleEngine
