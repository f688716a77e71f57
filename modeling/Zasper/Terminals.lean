import Mathlib.Data.String.Basic
import Zasper.Maps

/-!
# Terminals

A terminal is opened for every connection: a login shell is started and stored under
a new session id. The handler does not look at who asks.
-/
namespace Zasper.Terminals
open Zasper.Maps
set_option linter.unusedSimpArgs false

structure TerminalSession where
  /-- The command with its arguments. -/
  command : List String
  pid : Nat
deriving DecidableEq

/-- The sessions, and the processes that run in them. -/
structure TerminalState where
  sessions : Dict String TerminalSession
  processes : List Nat
deriving DecidableEq

def shellFor (osName : String) : String :=
  if osName = "windows" || osName = "linux" || osName = "freebsd" || osName = "android" then "bash" else "zsh"

/-- What the handler meets: whether the handshake is accepted, the time as a session
    id, and the process that is started or the text of the error. -/
structure Outside where
  upgrades : Bool
  sessionID : String
  started : Except String Nat

inductive Answer where
  | refused
  | opened (sessionID : String)
  | failed (text : String)
deriving DecidableEq

def handleTerminalWebSocket (osName : String) (outside : Outside) (terminals : TerminalState) :
    TerminalState × Answer :=
  if !outside.upgrades then (terminals,.refused)
  else
    match outside.started with
    | .error e => (terminals,.failed ("failed to start tty: failed to start TTY: " ++ e))
    | .ok pid =>
      ({ sessions := terminals.sessions.insert outside.sessionID ⟨[shellFor osName,"-l"],pid⟩
         processes := pid :: terminals.processes }
      ,.opened outside.sessionID)

theorem handleTerminal_refused {osName : String} {outside : Outside} {terminals : TerminalState}
    (refused : outside.upgrades = false ∨ outside.started.isOk = false) :
    (handleTerminalWebSocket osName outside terminals).1 = terminals := by
  unfold handleTerminalWebSocket
  cases started : outside.started with
  | error e => split_ifs <;> rfl
  | ok pid =>
    have notUpgraded : outside.upgrades = false := by simpa [started,Except.isOk,Except.toBool] using refused
    rw [if_pos (by simp [notUpgraded])]

end Zasper.Terminals
