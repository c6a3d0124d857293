/-
This file names the released program, the version that is pinned, and the addresses of its assets.
-/

import Launcher.Bytes

namespace Launcher.Release

def program : Bytes := "deepseek"

/-- This is the version that the launcher installs. -/
def pinned : Bytes := "0.1.0"

def page : Bytes := "https://github.com/Hmbown/DeepSeek-CLI"

def userAgent : Bytes := "User-Agent: deepseek-launcher/" ++ pinned

/-- The address of an asset holds the version after a `v` and then the name of the asset. -/
def assetAddress (version asset : Bytes) : Bytes :=
  page ++ "/releases/download" ++ "/v" ++ version ++ "/" ++ asset

end Launcher.Release
