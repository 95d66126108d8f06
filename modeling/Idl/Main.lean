/-
# The program

The program takes over the files and folders that a command line may be about, runs the command
on them, and puts the files that have changed back.
-/
import Idl.Command

namespace Idl

namespace Program

/-- The text of a string from outside. -/
def text (s : String) : Text := s

/-- The location of a path that starts at the root. -/
def locationOf (s : String) : Location := (FilePath.ofText (text s)).names

/-- Takes over everything in a folder, given what is in it.  A file that is no text is passed
over. -/
partial def takeAll (l : Location) (entries : Array IO.FS.DirEntry) (d : Disk) : IO Disk := do
  let mut d := { d with folders := l :: d.folders }
  for e in entries do
    let place := l ++ [text e.fileName]
    if ← e.path.isDir then
      d ← takeAll place (← e.path.readDir) d
    else
      try d := d.write place (text (← IO.FS.readFile e.path))
      catch _ => d := d
  return d

/-- Takes over what is at a location. -/
def takeOver (l : Location) (d : Disk) : IO Disk := do
  let path := (← IO.currentDir) / l.text.toString
  if ← path.isDir then takeAll l (← path.readDir) d
  else if ← path.pathExists then
    try return d.write l (text (← IO.FS.readFile path))
    catch _ => return d
  else return d

/-- Takes over the settings files on the way to a location. -/
def takeSettings (l : Location) (d : Disk) : IO Disk :=
  l.onTheWay.foldlM (fun d k => takeOver (k ++ [settingsName]) d) d

/-- The folder for modules that the settings of a target name. -/
def rootOf? [Machine] (d : Disk) (target : FilePath) : Option Location :=
  match d.nearestSettings target with
  | .ok (⟨_, _, .text root, _, _⟩, _) =>
    some ((target.join (FilePath.ofText root)).resolve d.here)
  | _ => none

/-- Takes over what a command with a path may be about. -/
def takeFor [Machine] (d : Disk) (path : Text) : IO Disk := do
  let target := FilePath.ofText path
  let l := target.resolve d.here
  let d ← takeSettings l d
  let d ← takeOver l d
  match rootOf? d target with
  | some root => if l.isPrefixOf root then return d else takeOver root d
  | none => return d

/-- Reads the lines of a stream up to its end. -/
partial def readAll (s : IO.FS.Stream) (read : String) : IO String := do
  let line ← s.getLine
  if line.isEmpty then return read else readAll s (read ++ line)

/-- Puts back the files that differ. -/
def putBack (before after : Disk) : IO Unit :=
  after.files.forM fun (l, t) => do
    if before.fileAt? l ≠ some t then
      IO.FS.writeFile ((← IO.currentDir) / l.text.toString) t.toString

end Program

end Idl

open Idl Program in
/-- Runs the program. -/
def main (args : List String) : IO UInt32 := do
  let _ : Machine := Machine.usual
  let words := args.map text
  let here := locationOf (← IO.currentDir).toString
  let mut disk : Disk := ⟨[], [], here⟩
  let mut input := ""
  if let .command _ verb ws := Invocation.ofWords words then
    if let some path := Run.path? verb ws then
      disk ← takeFor disk path
    if ws.flags.contains .input then
      input ← readAll (← IO.getStdin) ""
  let r := Run.ofArguments disk (text input) words
  IO.print r.out.toString
  IO.eprint r.err.toString
  if let .crash c := r.outcome then
    IO.eprintln ("duet: " ++ c.message.toString)
  putBack disk r.disk
  return r.outcome.code.toUInt32
