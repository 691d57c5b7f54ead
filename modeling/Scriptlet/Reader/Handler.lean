import Scriptlet.Grammar
import Scriptlet.Reader.Cursor

/-!
# Rules of one's own

Who uses the reader can replace the rules of the language for single kinds of tokens. Such a rule
does not move over tokens itself, but it can have any number of blocks read. It is a tree: at each
node it ends, or does one thing and goes on as the result of that decides.
-/
set_option autoImplicit false

namespace Scriptlet

open Token (Kind)

inductive Handler where
  | finish (result : Except Diagnostic Expr)
  | look (next : Cursor → Handler)
  | record (diagnostic : Diagnostic) (next : Handler)
  /-- Takes the current token for the opening brace of a block. What is wrong with the block can be
  passed on, or mended. -/
  | read (next : Except Diagnostic Block → Handler)

namespace Handler

def run (block : Reader Block) : Handler → Reader Expr
  | .finish result => Run.ofExcept result
  | .look next => do
    let cursor ← Run.view id
    (next cursor).run block
  | .record diagnostic next => do
    Reader.record diagnostic
    next.run block
  | .read next => do
    let result ← Run.attempt block
    (next result).run block

def answer (result : Token → Except Diagnostic Expr) : Handler :=
  .look fun cursor => .finish (result cursor.current)

def block (wrap : Block → Expr) : Handler :=
  .read fun body => .finish (body.map wrap)

end Handler

def TrailingHandler : Type :=
  Expr → Handler

namespace TrailingHandler

def answer (result : Expr → Token → Except Diagnostic Expr) : TrailingHandler :=
  fun left => .answer (result left)

def block (wrap : Expr → Block → Expr) : TrailingHandler :=
  fun left => .block (wrap left)

end TrailingHandler

/-- Rules that take the place of those of the language. They leave the precedences alone. -/
structure Handlers where
  leading? : Kind → Option Handler
  trailing? : Kind → Option TrailingHandler

namespace Handlers

def standard : Handlers :=
  ⟨fun _ => none, fun _ => none⟩

def setLeading (handlers : Handlers) (kind : Kind) (handler : Handler) : Handlers :=
  { handlers with
    leading? := fun other => if other = kind then some handler else handlers.leading? other }

def setTrailing (handlers : Handlers) (kind : Kind) (handler : TrailingHandler) : Handlers :=
  { handlers with
    trailing? := fun other => if other = kind then some handler else handlers.trailing? other }

end Handlers

end Scriptlet
