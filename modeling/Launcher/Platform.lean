/-
This file describes host platforms and selects the released asset for each.
-/

import Launcher.Release
import Launcher.Status

namespace Launcher

inductive OperatingSystem where
  | unknown | linux | macOS | windows
  deriving DecidableEq

inductive Processor where
  | unknown | x86_64 | arm64
  deriving DecidableEq

/-- A platform is an enumerated pair together with the names it was read from. -/
structure Platform where
  system : OperatingSystem
  processor : Processor
  systemName : Bytes
  processorName : Bytes
  deriving DecidableEq

/-- A build is one released asset with the platform that it runs on. -/
structure Build where
  system : OperatingSystem
  processor : Processor
  label : Bytes
  asset : Bytes
  deriving DecidableEq

def OperatingSystem.ofName (name : Bytes) : OperatingSystem :=
  if name = "linux" then .linux
  else if name = "darwin" then .macOS
  else if name = "windows" then .windows
  else .unknown

/-- An installed binary has an extension on one system only. -/
def OperatingSystem.binaryName : OperatingSystem → Bytes
  | .windows => Release.program ++ ".exe"
  | _ => Release.program

def Processor.ofName (name : Bytes) : Processor :=
  if name = "x86_64" ∨ name = "amd64" then .x86_64
  else if name = "arm64" ∨ name = "aarch64" then .arm64
  else .unknown

def Build.all : List Build :=
  [⟨.linux, .x86_64, "linux/x86_64", Release.program ++ "-linux-x64"⟩,
    ⟨.macOS, .arm64, "darwin/arm64", Release.program ++ "-macos-arm64"⟩,
    ⟨.macOS, .x86_64, "darwin/x86_64", Release.program ++ "-macos-x64"⟩,
    ⟨.windows, .x86_64, "windows/x86_64", Release.program ++ "-windows-x64.exe"⟩]

/-- The labels are listed in the order of the builds. -/
def Build.supported : Bytes := Bytes.intercalate ", " (Build.all.map Build.label)

namespace Platform

/-- The letter case of the names does not matter, and an absent name counts as empty. -/
def ofNames (systemName processorName : Option Bytes) : Platform :=
  let systemName := (systemName.getD []).lower
  let processorName := (processorName.getD []).lower
  ⟨.ofName systemName, .ofName processorName, systemName, processorName⟩

/-- Only the enumerated pair selects the asset. -/
def asset (platform : Platform) : Except Status Bytes :=
  match Build.all.find? fun build =>
      build.system == platform.system && build.processor == platform.processor with
  | some build => .ok build.asset
  | none => .error (.error .platform .notSupported)

def binaryName (platform : Platform) : Bytes := platform.system.binaryName

/-- A description or an asset name needs a place to go to. -/
def noPlace : Status := .error .platform .invalidArgument

end Platform

end Launcher
