import Stagehand.Shell.Machine

/-!
# Usual hosts

What every host brings along: its directories, the device that takes all that is written to it, and
its programs at their usual places.
-/

namespace Stagehand.Live

/-- The programs that can be run, at their usual places. -/
def usualPrograms : List (List String × Shell.SystemProgram) :=
  [("sh", .shell), ("dash", .shell), ("sleep", .sleep), ("cat", .cat)].flatMap fun p =>
    [(["bin", p.1], p.2), (["usr", "bin", p.1], p.2)]

def usualDirs : List (List String) :=
  [["bin"], ["dev"], ["etc"], ["home"], ["root"], ["tmp"], ["usr"], ["usr", "bin"], ["usr", "lib"],
    ["usr", "local"], ["usr", "local", "bin"], ["usr", "sbin"], ["var"], ["var", "tmp"]]

/-- The names of programs that are there, and are only looked at. -/
def otherPrograms : List String :=
  ["awk", "basename", "bash", "chmod", "cp", "cut", "date", "dd", "dirname", "du", "echo",
    "env", "expr", "false", "find", "grep", "head", "hostname", "id", "kill", "ln", "ls", "mkdir",
    "mktemp", "mv", "printf", "ps", "pwd", "readlink", "rm", "rmdir", "sed", "seq", "sort", "stat",
    "tail", "tar", "tee", "test", "touch", "tr", "true", "uname", "uniq", "wc", "whoami",
    "xargs", "yes"]

/-- The bytes that compiled programs begin with. -/
def compiledMark : ByteArray := ⟨#[127, 69, 76, 70]⟩

/-- The files of a host that has nothing else. -/
def usualFiles : FileTree :=
  let dirs := usualDirs.foldl (fun t place => t.put place .bareDir) FileTree.empty
  let places := usualPrograms.map (·.1) ++
    otherPrograms.flatMap fun name => [["bin", name], ["usr", "bin", name]]
  let files := places.foldl (fun t place => t.put place (.file compiledMark true)) dirs
  files.put ["dev", "null"] .device

end Stagehand.Live
