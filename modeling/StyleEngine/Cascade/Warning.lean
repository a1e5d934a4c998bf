import StyleEngine.Text.Paint

/-!
# `Cascade/Warning.lean` — warnings that are given once

What is ignored in the input is reported, but not twice. A log remembers what has been
said since it was last cleared, and `warnOnce` adds to it. The log knows a warning by
one line of text made of its component and its message, and so it takes two warnings
for one when these lines are the same.

Warnings are a side line. They are kept in the state of a computation (`Warned`) and
its result is there without them.
-/

set_option autoImplicit false

namespace StyleEngine

/-- Something that was ignored, and who ignored it. -/
structure Warning where
  component : String
  message : String
deriving DecidableEq

namespace Warning

/-- The line by which a warning is remembered. -/
def key (w : Warning) : String :=
  s!"[{w.component}] {w.message}"

/-- The line that is printed. -/
def text (w : Warning) : String :=
  Paint.yellow.apply s!"[Toy {w.component}] ⚠ {w.message}" ++ "\n"

end Warning

/-- What has been remembered since the log was cleared, and all that was given. -/
structure WarningLog where
  seen : List String
  given : List Warning

namespace WarningLog

def empty : WarningLog := ⟨[], []⟩

/-- Gives a warning, unless its line is remembered. -/
def warnOnce (log : WarningLog) (w : Warning) : WarningLog :=
  if log.seen.contains w.key then log else ⟨w.key :: log.seen, log.given ++ [w]⟩

/-- Forgets what has been said. -/
def clear (log : WarningLog) : WarningLog :=
  ⟨[], log.given⟩

/-- All that was printed. -/
def text (log : WarningLog) : String :=
  String.join (log.given.map Warning.text)

end WarningLog

/-- A computation that may warn. -/
abbrev Warned := StateM WarningLog

/-- Gives a warning once. -/
def warnOnce (w : Warning) : Warned Unit :=
  modify (·.warnOnce w)

end StyleEngine
