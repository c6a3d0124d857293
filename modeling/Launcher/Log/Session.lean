/-
This file defines the state of the log and the decisions about what is written.
-/

import Launcher.Log.Meter

namespace Launcher.Log

/-- The state keeps the selected level, whether the screen is a terminal, and the moment of the
last drawn reading, which is zero when no meter line is open. -/
structure Session where
  level : Level := .information
  terminal : Bool := false
  drawnAt : Int := 0
  deriving DecidableEq

namespace Session

/-- A message is written when its level is not silent and at most the selected level. -/
def admits (session : Session) (level : Level) : Bool :=
  level ≠ .silent && level ≤ session.level

/-- Only the levels up to `debug` can be selected. -/
def select (session : Session) (level : Level) : Session :=
  if level ≤ .debug then { session with level := level } else session

/-- A status is a summary, followed by its details when everything is shown. A status that does
not fail is left out below the level `debug`. -/
def statusMessages (session : Session) (level : Level) (origin : Origin) (status : Status)
    (context : Option Bytes) : List Message :=
  if !status.failed && level < .debug then []
  else if session.level < level then []
  else
    ⟨level, origin, summary status context⟩ ::
      if session.level = .debug then [⟨.debug, origin, details status⟩] else []

/-- The messages of an entry are those that go to the screen as lines and to the file. -/
def messages (session : Session) : Entry → List Message
  | .message message => [message]
  | .status level origin status context => session.statusMessages level origin status context
  | .reading _ => []
  | .endReadings => []

/-- The meter is shown on a terminal from the level `information` on. -/
def showsMeter (session : Session) : Bool :=
  session.terminal && Level.information ≤ session.level

/-- Within a second of the last one, only a first or a last reading is drawn. -/
def draws (session : Session) (moment : Int) (reading : Reading) : Bool :=
  session.showsMeter &&
    !(moment - session.drawnAt < 1 && reading.received < reading.total && 0 < reading.received)

/-- The meter line is open on a terminal after a reading was drawn. -/
def meterOpen (session : Session) : Bool := session.terminal && 0 < session.drawnAt

end Session

end Launcher.Log
