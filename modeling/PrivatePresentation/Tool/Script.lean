import PrivatePresentation.Files.Tree
import PrivatePresentation.Http.Message

/-!
Scripts: what a command does to its surroundings, one deed after the other. A script is a tree: a deed
leads to a script for each of its outcomes. It says nothing about who does the deeds; `perform` does
them on a tree of files, and whoever has real files can do them there.
-/

namespace PrivatePresentation.Tool

/-- Why a request to another machine has no response. -/
inductive FetchError where
  | invalidUrl (cause : Http.UrlError)
  /-- The address is not one of the web. -/
  | notOfTheWeb (url : String)
  | unreachable (url : String)
deriving DecidableEq, Repr

/-- A script that ends with a value. -/
inductive Script (α : Type) where
  | done (value : α)
  /-- Read a file. -/
  | read (path : String) (next : Except FileError Bytes → Script α)
  /-- Write a file. -/
  | write (path : String) (contents : Bytes) (next : Except FileError Unit → Script α)
  /-- Make a directory and those that it lies in. -/
  | makeDirectories (path : String) (next : Except FileError Unit → Script α)
  /-- Send a request to the machine that its target names. -/
  | exchange (request : Http.Request) (next : Except FetchError Http.Response → Script α)

namespace Script

variable {α β : Type}

/-- A script, then another that depends on its value. -/
def bind (s : Script α) (f : α → Script β) : Script β :=
  match s with
  | .done v => f v
  | .read path next => .read path fun r => (next r).bind f
  | .write path contents next => .write path contents fun r => (next r).bind f
  | .makeDirectories path next => .makeDirectories path fun r => (next r).bind f
  | .exchange request next => .exchange request fun r => (next r).bind f

instance : Monad Script where
  pure := .done
  bind := bind

/-- Performs a script on a tree of files, with the answers of other machines. -/
def perform (answers : Http.Request → Except FetchError Http.Response) :
    Script α → FileTree → α × FileTree
  | .done v, t => (v, t)
  | .read path next, t => perform answers (next (t.read path)) t
  | .write path contents next, t =>
    match t.write path contents with
    | .ok t => perform answers (next (.ok ())) t
    | .error e => perform answers (next (.error e)) t
  | .makeDirectories path next, t =>
    match t.makeDirectories path with
    | .ok t => perform answers (next (.ok ())) t
    | .error e => perform answers (next (.error e)) t
  | .exchange request next, t => perform answers (next (answers request)) t

end Script
end PrivatePresentation.Tool
