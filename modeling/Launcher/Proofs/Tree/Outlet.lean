/-
This file is about the file that a path names for writing. The path goes on to name it when the file
is created or gets other content.
-/

import Launcher.Proofs.Tree.Touch

namespace Launcher

/-- The place that an outlet writes to. -/
def Outlet.place : Outlet → Place
  | .file location mode content => .taken location (.file mode content)
  | .vacant location => .vacant location
  | .device other => .device other

/-- The file that an outlet writes and the mode that it has then. A new file gets the given mode. -/
def Outlet.file? (created : Mode) : Outlet → Option (Location × Mode)
  | .file location mode _ => some (location, mode)
  | .vacant location => some (location, created)
  | .device _ => none

theorem Outlet.place_of_file? {outlet : Outlet} {created mode : Mode} {location : Location}
    (isFile : outlet.file? created = some (location, mode)) :
    outlet.place.At location ∧ (∀ device, outlet ≠ .device device) ∧
      ∀ device, outlet.place ≠ .device device := by
  cases outlet with
  | file other kept content =>
      cases isFile
      exact ⟨rfl, by simp, by simp [place]⟩
  | vacant other =>
      cases isFile
      exact ⟨rfl, by simp, by simp [place]⟩
  | device device => cases isFile

theorem Outlet.device_of_file? {outlet : Outlet} {created : Mode}
    (noFile : outlet.file? created = none) : ∃ device, outlet = .device device := by
  cases outlet with
  | file location kept content => cases noFile
  | vacant location => cases noFile
  | device device => exact ⟨device, rfl⟩

namespace Tree

variable {tree : Tree} {path : Bytes} {location : Location} {mode : Mode} {content : Bytes}

/-- A path names a file with its content, or the place where an empty file can be created. -/
inductive Names (tree : Tree) (path : Bytes) (location : Location) : Bytes → Prop
  | vacant (named : tree.writable path = .ok (.vacant location)) : Names tree path location []
  | file {mode : Mode} {content : Bytes}
      (named : tree.writable path = .ok (.file location mode content)) :
      Names tree path location content

/-- What can be written at a path is at the end of a walk that creates files. -/
theorem resolve_of_writable {outlet : Outlet} (noDevice : ∀ device, outlet ≠ .device device)
    (named : tree.writable path = .ok outlet) :
    tree.resolve .create path = .ok ⟨outlet.place, false⟩ := by
  unfold writable at named
  split at named <;> cases named
  · exact absurd rfl (noDevice _)
  · rename_i asks notAsked resolved
    cases asks with
    | true => exact (notAsked rfl).elim
    | false => exact resolved
  · rename_i asks notAsked resolved
    cases asks with
    | true => exact (notAsked rfl).elim
    | false => exact resolved

theorem fits_of_writable {outlet : Outlet} (noDevice : ∀ device, outlet ≠ .device device)
    (named : tree.writable path = .ok outlet) : outlet.place.Fits tree := by
  have resolved := resolve_of_writable noDevice named
  have noPlace (device : Device) : outlet.place ≠ .device device := by
    cases outlet with
    | device other => exact absurd rfl (noDevice other)
    | _ => simp [Outlet.place]
  exact walk_fits (walk_of_resolve noPlace resolved)

theorem get?_of_writable (named : tree.writable path = .ok (.file location mode content)) :
    tree.get? location = some (.file mode content) :=
  fits_of_writable (by simp) named

theorem Names.of_file? {outlet : Outlet} {created : Mode}
    (named : tree.writable path = .ok outlet)
    (isFile : outlet.file? created = some (location, mode)) :
    ∃ content, tree.Names path location content := by
  cases outlet with
  | file other kept content =>
      cases isFile
      exact ⟨content, .file named⟩
  | vacant other =>
      cases isFile
      exact ⟨[], .vacant named⟩
  | device device => cases isFile

namespace Names

variable (named : tree.Names path location content)
include named

theorem resolved : ∃ place, place.At location ∧ (∀ device, place ≠ .device device) ∧
    tree.resolve .create path = .ok ⟨place, false⟩ := by
  cases named with
  | vacant free =>
      exact ⟨.vacant location, rfl, by simp, resolve_of_writable (by simp) free⟩
  | file held =>
      exact ⟨.taken location _, rfl, by simp, resolve_of_writable (by simp) held⟩

theorem room : tree.HasRoom location := by
  cases named with
  | vacant free => exact .of_none (fits_of_writable (by simp) free).1
  | file held => exact .of_file (get?_of_writable held)

theorem nonRoot : location ≠ [] := nonRoot_of_noDirectory named.room.noDirectory

theorem nonempty : path ≠ [] := by
  rintro rfl
  obtain ⟨place, _, _, resolved⟩ := named.resolved
  cases resolved

/-- A path still names its file after that was written, whatever its content is now. -/
theorem writable_put (mode : Mode) (latest : Bytes) :
    (tree.put location (.file mode latest)).writable path = .ok (.file location mode latest) := by
  obtain ⟨place, there, noDevice, resolved⟩ := named.resolved
  have touched := Touched.put_file named.room named.nonRoot mode latest
  have held : (tree.put location (.file mode latest)).get? location = some (.file mode latest) := by
    rw [tree.get?_put location location _ (absurd · named.nonRoot), if_pos rfl]
  have again := resolve_keep_taken touched.ways held (by simp) there noDevice resolved
  rw [writable, again]

end Names

end Tree

end Launcher
