/-
This file names the settings that are read from the environment.
-/

import Launcher.Bytes

namespace Launcher

inductive Setting where
  | home | overridePath | skipDownload | verbs | logLevel | logFile
  deriving DecidableEq

def Setting.name : Setting → Bytes
  | .home => "HOME"
  | .overridePath => "DEEPSEEK_CLI_PATH"
  | .skipDownload => "DEEPSEEK_CLI_SKIP_DOWNLOAD"
  | .verbs => "DEEPSEEK_LAUNCHER_VERBS"
  | .logLevel => "DEEPSEEK_LOG_LEVEL"
  | .logFile => "DEEPSEEK_LOG_FILE"

/-- A setting may be absent, which differs from an empty one. -/
abbrev Environment := Setting → Option Bytes

end Launcher
