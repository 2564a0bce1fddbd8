import SchemaDiagram.FileTree

namespace SchemaDiagram

namespace SystemTree

/-- The directory in which the system shows the running program. -/
def programPath : String := "/proc/1000"

/-- The directories in which the system shows the threads of the running program: the program as a
whole, and its only thread. -/
def threadPaths : List String := [programPath, programPath ++ "/task/1000"]

def directories : List String :=
  ["/boot", "/dev", "/dev/mqueue", "/dev/pts", "/dev/shm", "/etc", "/home", "/media", "/mnt", "/opt",
    "/proc", "/proc/bus", "/proc/driver", "/proc/fs", "/proc/irq", "/proc/sys", "/proc/sys/fs",
    "/proc/sys/kernel", "/proc/sys/net", "/proc/sys/vm", "/proc/tty", programPath,
    programPath ++ "/task", "/root", "/run", "/run/lock", "/srv", "/sys", "/sys/block", "/sys/bus",
    "/sys/class", "/sys/dev", "/sys/devices", "/sys/firmware", "/sys/fs", "/sys/kernel", "/sys/module",
    "/sys/power", "/tmp", "/usr", "/usr/bin", "/usr/games", "/usr/include", "/usr/lib", "/usr/lib64",
    "/usr/local", "/usr/local/bin", "/usr/local/etc", "/usr/local/games", "/usr/local/include",
    "/usr/local/lib", "/usr/local/sbin", "/usr/local/share", "/usr/local/src", "/usr/sbin",
    "/usr/share", "/usr/src", "/var", "/var/backups", "/var/cache", "/var/lib", "/var/local",
    "/var/log", "/var/mail", "/var/opt", "/var/spool", "/var/tmp"]

/-- The directories that the system shows of each thread. -/
def threadDirectories : List String := ["", "/attr", "/fd", "/fdinfo", "/net", "/ns"]

/-- The devices. The streams stand in the root under names that hold a slash, so that no path names them
and only links lead there. -/
def devices : List (FilePlace × Device) :=
  [(["dev", "null"], .null), (["dev", "zero"], .endless), (["dev", "random"], .endless),
    (["dev", "urandom"], .endless), (["dev", "full"], .full), (["dev", "tty"], .disconnected),
    (["stream/0"], .standardInput), (["stream/1"], .standardOutput), (["stream/2"], .standardError)]

def links : List (String × String) :=
  [("/bin", "/usr/bin"), ("/lib", "/usr/lib"), ("/lib64", "/usr/lib64"), ("/sbin", "/usr/sbin"),
    ("/var/lock", "/run/lock"), ("/var/run", "/run"), ("/etc/mtab", "/proc/mounts"),
    ("/dev/fd", "/proc/self/fd"), ("/dev/stdin", "/proc/self/fd/0"), ("/dev/stdout", "/proc/self/fd/1"),
    ("/dev/stderr", "/proc/self/fd/2"), ("/proc/self", programPath),
    ("/proc/thread-self", programPath ++ "/task/1000"), ("/proc/mounts", "/proc/self/mounts"),
    ("/proc/net", "/proc/self/net")]

def informativeFiles : List String :=
  ["/etc/group", "/etc/hostname", "/etc/hosts", "/etc/os-release", "/etc/passwd", "/etc/resolv.conf",
    "/proc/buddyinfo", "/proc/cgroups", "/proc/cmdline", "/proc/consoles", "/proc/cpuinfo",
    "/proc/crypto", "/proc/devices", "/proc/diskstats", "/proc/filesystems", "/proc/interrupts",
    "/proc/iomem", "/proc/ioports", "/proc/loadavg", "/proc/meminfo", "/proc/misc", "/proc/partitions",
    "/proc/softirqs", "/proc/stat", "/proc/swaps", "/proc/uptime", "/proc/version", "/proc/vmstat",
    "/proc/zoneinfo"]

def threadFiles : List String :=
  ["/cgroup", "/cmdline", "/comm", "/cpuset", "/environ", "/gid_map", "/io", "/limits", "/loginuid",
    "/maps", "/mountinfo", "/mounts", "/mountstats", "/oom_adj", "/oom_score", "/oom_score_adj",
    "/personality", "/sched", "/schedstat", "/sessionid", "/setgroups", "/smaps", "/smaps_rollup",
    "/stat", "/statm", "/status", "/uid_map"]

/-- What stands in for the contents of the files that tell about something: like them, it describes no
table and is not TOML. -/
def information : String := "information\n"

/-- Where nothing can be created, changed or removed. -/
def sealedPaths : List String := ["/etc", "/proc", "/sys", "/usr"]

/-- The place that an absolute path without links names. -/
def placeOf (path : String) : FilePlace := (pathParts path).tail

/-- What the system shows of a thread, for a program that works in the directory. -/
def threadNodes (directory : FilePlace) (path : String) : List (FilePlace × FileNode) :=
  threadDirectories.map (fun name => (placeOf (path ++ name), .directory))
    ++ threadFiles.map (fun name => (placeOf (path ++ name), .file information.toUTF8))
    ++ ["0", "1", "2"].map (fun number =>
      (placeOf (path ++ "/fd/" ++ number), .link ["stream/" ++ number]))
    ++ [(placeOf (path ++ "/cwd"), .link directory), (placeOf (path ++ "/root"), .link [])]

end SystemTree

/-- The files of a system on which nothing has been kept, for a program that works in the directory. -/
def FileTree.system (directory : FilePlace) : FileTree where
  nodes :=
    .ofList (SystemTree.directories.map (fun path => (SystemTree.placeOf path, .directory))
      ++ SystemTree.devices.map (fun (place, device) => (place, .device device))
      ++ SystemTree.links.map (fun (path, target) =>
        (SystemTree.placeOf path, .link (SystemTree.placeOf target)))
      ++ SystemTree.informativeFiles.map (fun path =>
        (SystemTree.placeOf path, .file SystemTree.information.toUTF8))
      ++ SystemTree.threadPaths.flatMap (SystemTree.threadNodes directory))
  sealedPlaces := SystemTree.sealedPaths.map SystemTree.placeOf

end SchemaDiagram
