import ScanCircuit.Files.Tree
import ScanCircuit.Text.Utf8

/-!
# The files of a system

What every system has besides the files that a command works on: the directories at the
root, devices, and programs. A command works in a directory of its own.
-/

namespace ScanCircuit

namespace FileTree

/-- The directory that a command works in. -/
def workplace : Location := ["tmp", "work"]

/-- The directories of a system, parents first. -/
def systemDirectories : List Location :=
  [["bin"], ["boot"], ["dev"], ["dev", "fd"], ["dev", "pts"], ["dev", "shm"], ["etc"], ["home"],
   ["lib"], ["lib64"], ["media"], ["mnt"], ["opt"], ["proc"], ["proc", "self"],
   ["proc", "self", "fd"], ["root"], ["run"], ["sbin"], ["srv"], ["sys"], ["tmp"], workplace,
   ["usr"], ["usr", "bin"], ["usr", "lib"], ["usr", "local"], ["usr", "local", "bin"],
   ["usr", "local", "lib"], ["usr", "local", "sbin"], ["usr", "local", "share"],
   ["usr", "sbin"], ["usr", "share"], ["var"], ["var", "lib"], ["var", "log"], ["var", "tmp"]]

/-- The files of a system that hold text. -/
def systemFiles : List (Location × String) :=
  [(["etc", "passwd"], "root:x:0:0:root:/root:/bin/bash\n")]

/-- The devices of a system. -/
def systemDevices : List (Location × Device) :=
  [(["dev", "null"], .null), (["dev", "full"], .full),
   (["dev", "stdin"], .stream 0), (["dev", "stdout"], .stream 1), (["dev", "stderr"], .stream 2),
   (["dev", "fd", "0"], .stream 0), (["dev", "fd", "1"], .stream 1),
   (["dev", "fd", "2"], .stream 2), (["proc", "self", "fd", "0"], .stream 0),
   (["proc", "self", "fd", "1"], .stream 1), (["proc", "self", "fd", "2"], .stream 2)]

/-- The directories that programs are looked for in, in order. -/
def programDirectories : List Location :=
  [["usr", "local", "sbin"], ["usr", "local", "bin"], ["usr", "sbin"], ["usr", "bin"], ["sbin"],
   ["bin"]]

/-- The files of a system with the given programs. -/
def system (programs : List String) : FileTree where
  entries :=
    systemDirectories.map (·, .directory) ++
      systemFiles.map (fun (location, text) => (location, .file (Text.Utf8.encode text))) ++
      systemDevices.map (fun (location, device) => (location, .device device)) ++
      programs.flatMap fun name => [(["usr", "bin", name], .program), (["bin", name], .program)]

end FileTree

end ScanCircuit
