/-
This file holds the help text of the launcher.
-/

import Launcher.Release
import Launcher.Setting

namespace Launcher.Usage

/-- A line of the usage ends in a line feed. -/
def line (parts : List Bytes) : Bytes := parts.flatten ++ "\n"

def text : Bytes :=
  let program := Release.program
  let directory := "/." ++ program ++ "/bin/" ++ Release.pinned ++ "/"
  let verbs := Setting.verbs.name
  List.flatten <| List.map line [
    ["Usage: ", program, " [args_for_", program, "...]"],
    ["Every argument is passed through to the ", program, " ", Release.pinned,
      " binary, which is downloaded on first use to:"],
    ["  $HOME", directory],
    [],
    ["Environment variables:"],
    ["  ", Setting.overridePath.name, "  Path to a ", program,
      " binary to run instead (used only if it exists)"],
    [],
    ["  ", Setting.skipDownload.name, "  Never download; fail if the binary isn't cached."],
    ["                   Accepted values: '1', 'true', 'TRUE'"],
    [],
    ["  ", verbs, "  Semicolon-separated list of verbs to control the launcher:"],
    ["                   - 'version'   Print the pinned ", program, " version and exit"],
    ["                   - 'path'      Print the resolved binary path instead of running it"],
    ["                   - 'reinstall' Download the binary again, even if it's cached"],
    ["                   - 'help'      Display this help and exit"],
    [],
    ["            Examples:"],
    ["                ", verbs, "=\"path\" ", program],
    ["                ", verbs, "=\"reinstall\" ", program, " --help"],
    [],
    ["  ", Setting.logLevel.name, "  Control the verbosity of the logging output. Valid values are:"],
    ["                   - 'none'     Turn off all logging"],
    ["                   - 'error'    Show only errors"],
    ["                   - 'warn'     Show warnings and errors"],
    ["                   - 'info'     Show status messages and all of the above (default)"],
    ["                   - 'debug'    Show detailed debugging information and all of the above"],
    [],
    ["  ", Setting.logFile.name, "  Also append log messages to this file"]]

end Launcher.Usage
