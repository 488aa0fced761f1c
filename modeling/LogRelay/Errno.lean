/-!
# Error numbers

The error numbers of the operating system that have a name here, with the two texts in use for each: the short
`description` and the system's own `message`.
-/

namespace LogRelay

inductive Errno where
  | EPERM | ENOENT | EINTR | EIO | ENXIO | EBADF | EAGAIN | ENOMEM | EACCES | EFAULT | EEXIST | ENOTDIR | EISDIR
  | EINVAL | ENOTTY | EFBIG | ENOSPC | EROFS | EPIPE | ENAMETOOLONG | ENOSYS | ENOTEMPTY | ELOOP | EOVERFLOW
  | ETIMEDOUT
  deriving DecidableEq

namespace Errno

def all : List Errno :=
  [EPERM, ENOENT, EINTR, EIO, ENXIO, EBADF, EAGAIN, ENOMEM, EACCES, EFAULT, EEXIST, ENOTDIR, EISDIR, EINVAL, ENOTTY,
   EFBIG, ENOSPC, EROFS, EPIPE, ENAMETOOLONG, ENOSYS, ENOTEMPTY, ELOOP, EOVERFLOW, ETIMEDOUT]

def number : Errno → Int
  | EPERM => 1
  | ENOENT => 2
  | EINTR => 4
  | EIO => 5
  | ENXIO => 6
  | EBADF => 9
  | EAGAIN => 11
  | ENOMEM => 12
  | EACCES => 13
  | EFAULT => 14
  | EEXIST => 17
  | ENOTDIR => 20
  | EISDIR => 21
  | EINVAL => 22
  | ENOTTY => 25
  | EFBIG => 27
  | ENOSPC => 28
  | EROFS => 30
  | EPIPE => 32
  | ENAMETOOLONG => 36
  | ENOSYS => 38
  | ENOTEMPTY => 39
  | ELOOP => 40
  | EOVERFLOW => 75
  | ETIMEDOUT => 110

def name : Errno → String
  | EPERM => "EPERM"
  | ENOENT => "ENOENT"
  | EINTR => "EINTR"
  | EIO => "EIO"
  | ENXIO => "ENXIO"
  | EBADF => "EBADF"
  | EAGAIN => "EAGAIN"
  | ENOMEM => "ENOMEM"
  | EACCES => "EACCES"
  | EFAULT => "EFAULT"
  | EEXIST => "EEXIST"
  | ENOTDIR => "ENOTDIR"
  | EISDIR => "EISDIR"
  | EINVAL => "EINVAL"
  | ENOTTY => "ENOTTY"
  | EFBIG => "EFBIG"
  | ENOSPC => "ENOSPC"
  | EROFS => "EROFS"
  | EPIPE => "EPIPE"
  | ENAMETOOLONG => "ENAMETOOLONG"
  | ENOSYS => "ENOSYS"
  | ENOTEMPTY => "ENOTEMPTY"
  | ELOOP => "ELOOP"
  | EOVERFLOW => "EOVERFLOW"
  | ETIMEDOUT => "ETIMEDOUT"

def description : Errno → String
  | EPERM => "Operation not permitted"
  | ENOENT => "No such file or directory"
  | EINTR => "Interrupted system call"
  | EIO => "I/O error"
  | ENXIO => "No such device or address"
  | EBADF => "Bad file number"
  | EAGAIN => "Try again"
  | ENOMEM => "Out of memory"
  | EACCES => "Permission denied"
  | EFAULT => "Bad address"
  | EEXIST => "File exists"
  | ENOTDIR => "Not a directory"
  | EISDIR => "Is a directory"
  | EINVAL => "Invalid argument"
  | ENOTTY => "Not a typewriter"
  | EFBIG => "File too large"
  | ENOSPC => "No space left on device"
  | EROFS => "Read-only file system"
  | EPIPE => "Broken pipe"
  | ENAMETOOLONG => "File name too long"
  | ENOSYS => "Function not implemented"
  | ENOTEMPTY => "Directory not empty"
  | ELOOP => "Too many symbolic links encountered"
  | EOVERFLOW => "Value too large for defined data type"
  | ETIMEDOUT => "Connection timed out"

/-- The text of the system, which differs from the description for a few numbers. -/
def message : Errno → String
  | EIO => "Input/output error"
  | EBADF => "Bad file descriptor"
  | EAGAIN => "Resource temporarily unavailable"
  | ENOMEM => "Cannot allocate memory"
  | ENOTTY => "Inappropriate ioctl for device"
  | ELOOP => "Too many levels of symbolic links"
  | e => e.description

def ofNumber? (n : Int) : Option Errno := all.find? fun e => e.number = n

theorem ofNumber?_number (e : Errno) : ofNumber? e.number = some e := by cases e <;> rfl

def messageOf (n : Int) : String :=
  match ofNumber? n with
  | some e => e.message
  | none => if n = 0 then "Success" else s!"Unknown error {n}"

end Errno
end LogRelay
