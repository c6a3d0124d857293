/-
This file defines transfers: what is asked for, what happens on the way, and how it ends.
-/

import Launcher.Status

namespace Launcher.Transfer

/-- A request follows redirects up to a limit, takes an error status for a failure, and has a
bounded time in seconds. -/
structure Request where
  address : Bytes
  headers : Option (List Bytes)
  followsRedirects : Bool := true
  redirectLimit : Nat := 10
  failsOnErrorStatus : Bool := true
  timeLimit : Nat := 60
  deriving DecidableEq

/-- A header list without headers is not sent at all. -/
def Request.to (address : Bytes) (headers : Option (List Bytes)) : Request :=
  { address, headers := headers.filter fun headers => !headers.isEmpty }

/-- Before each report of progress some seconds pass. -/
inductive Event where
  | progress (total received : Int64) (seconds : Int)
  | data (bytes : Bytes)
  deriving DecidableEq

/-- A transfer ends with a code, the report of its problem, the status of the server, and the
general text of the code. -/
structure Ending where
  code : Int := 0
  problem : Bytes := []
  httpStatus : Int := 200
  description : Bytes := "Unknown error"
  deriving DecidableEq

/-- A script says how every transfer goes, or that none can be set up. -/
structure Script where
  available : Bool := true
  events : List Event := []
  ending : Ending := {}
  deriving DecidableEq

namespace Ending

/-- The report of a problem has room for this many bytes. -/
def problemLimit : Nat := 255

/-- This code says that the received data could not be written. -/
def writeCode : Int := 23

def httpCode : Int := 22

def memoryCode : Int := 27

def timeoutCode : Int := 28

/-- When data cannot be written the transfer stops there and reports no problem. -/
def stopped (ending : Ending) : Ending := { ending with code := writeCode, problem := [] }

def status (ending : Ending) : Status :=
  if ending.code = 0 then .ok
  else if ending.code = timeoutCode then .error .network .timeout
  else if ending.code = httpCode then .error .network .httpStatus
  else if ending.code = memoryCode then .error .network .outOfMemory
  else .error .network .transfer

/-- An error status of the server is reported by its number, and any other failure by the problem
or else by the text of the code. -/
def cause (ending : Ending) : Bytes :=
  if ending.code = httpCode then "HTTP " ++ Bytes.ofInt ending.httpStatus
  else if ending.problem = [] then ending.description
  else ending.problem

end Ending

end Launcher.Transfer
