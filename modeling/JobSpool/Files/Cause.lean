/-
# Causes of the operating system

A refused call has a cause (`OsError`), which is shown by its usual text and its number.
The causes that a tree answers with are named, and so are those of a medium that is full or
mounted for reading only (`Files.Medium`). The texts of all others are in a table
(`furtherTexts`), and a number that is in no table is told as unknown.
-/

namespace JobSpool
namespace Files

/-- The causes an operating system gives. -/
inductive OsError where
  | notPermitted
  | noEntry
  | notExecutable
  | denied
  | busy
  | exists
  | notFolder
  | isFolder
  | invalid
  | noSpace
  | readOnly
  | nameTooLong
  | notEmpty
  | tooManyLinks
  /-- Any other cause, by its number. -/
  | other (number : Int)
  deriving DecidableEq, Repr

namespace OsError

/-- The number of a cause. -/
def number : OsError → Int
  | notPermitted => 1
  | noEntry => 2
  | notExecutable => 8
  | denied => 13
  | busy => 16
  | .exists => 17
  | notFolder => 20
  | isFolder => 21
  | invalid => 22
  | noSpace => 28
  | readOnly => 30
  | nameTooLong => 36
  | notEmpty => 39
  | tooManyLinks => 40
  | other n => n

/-- The cause with a given number. -/
def ofNumber : Int → OsError
  | 1 => notPermitted
  | 2 => noEntry
  | 8 => notExecutable
  | 13 => denied
  | 16 => busy
  | 17 => .exists
  | 20 => notFolder
  | 21 => isFolder
  | 22 => invalid
  | 28 => noSpace
  | 30 => readOnly
  | 36 => nameTooLong
  | 39 => notEmpty
  | 40 => tooManyLinks
  | n => other n

/-- **A number names at most one cause.** -/
theorem number_ofNumber (n : Int) : (ofNumber n).number = n := by
  unfold ofNumber
  split <;> rfl

/-- The usual texts of the causes without a name of their own, by number. -/
def furtherTexts : List (Int × String) :=
  [(0, "Success"),
   (3, "No such process"),
   (4, "Interrupted system call"),
   (5, "Input/output error"),
   (6, "No such device or address"),
   (7, "Argument list too long"),
   (9, "Bad file descriptor"),
   (10, "No child processes"),
   (11, "Resource temporarily unavailable"),
   (12, "Cannot allocate memory"),
   (14, "Bad address"),
   (15, "Block device required"),
   (18, "Invalid cross-device link"),
   (19, "No such device"),
   (23, "Too many open files in system"),
   (24, "Too many open files"),
   (25, "Inappropriate ioctl for device"),
   (26, "Text file busy"),
   (27, "File too large"),
   (29, "Illegal seek"),
   (31, "Too many links"),
   (32, "Broken pipe"),
   (33, "Numerical argument out of domain"),
   (34, "Numerical result out of range"),
   (35, "Resource deadlock avoided"),
   (37, "No locks available"),
   (38, "Function not implemented"),
   (42, "No message of desired type"),
   (43, "Identifier removed"),
   (44, "Channel number out of range"),
   (45, "Level 2 not synchronized"),
   (46, "Level 3 halted"),
   (47, "Level 3 reset"),
   (48, "Link number out of range"),
   (49, "Protocol driver not attached"),
   (50, "No CSI structure available"),
   (51, "Level 2 halted"),
   (52, "Invalid exchange"),
   (53, "Invalid request descriptor"),
   (54, "Exchange full"),
   (55, "No anode"),
   (56, "Invalid request code"),
   (57, "Invalid slot"),
   (59, "Bad font file format"),
   (60, "Device not a stream"),
   (61, "No data available"),
   (62, "Timer expired"),
   (63, "Out of streams resources"),
   (64, "Machine is not on the network"),
   (65, "Package not installed"),
   (66, "Object is remote"),
   (67, "Link has been severed"),
   (68, "Advertise error"),
   (69, "Srmount error"),
   (70, "Communication error on send"),
   (71, "Protocol error"),
   (72, "Multihop attempted"),
   (73, "RFS specific error"),
   (74, "Bad message"),
   (75, "Value too large for defined data type"),
   (76, "Name not unique on network"),
   (77, "File descriptor in bad state"),
   (78, "Remote address changed"),
   (79, "Can not access a needed shared library"),
   (80, "Accessing a corrupted shared library"),
   (81, ".lib section in a.out corrupted"),
   (82, "Attempting to link in too many shared libraries"),
   (83, "Cannot exec a shared library directly"),
   (84, "Invalid or incomplete multibyte or wide character"),
   (85, "Interrupted system call should be restarted"),
   (86, "Streams pipe error"),
   (87, "Too many users"),
   (88, "Socket operation on non-socket"),
   (89, "Destination address required"),
   (90, "Message too long"),
   (91, "Protocol wrong type for socket"),
   (92, "Protocol not available"),
   (93, "Protocol not supported"),
   (94, "Socket type not supported"),
   (95, "Operation not supported"),
   (96, "Protocol family not supported"),
   (97, "Address family not supported by protocol"),
   (98, "Address already in use"),
   (99, "Cannot assign requested address"),
   (100, "Network is down"),
   (101, "Network is unreachable"),
   (102, "Network dropped connection on reset"),
   (103, "Software caused connection abort"),
   (104, "Connection reset by peer"),
   (105, "No buffer space available"),
   (106, "Transport endpoint is already connected"),
   (107, "Transport endpoint is not connected"),
   (108, "Cannot send after transport endpoint shutdown"),
   (109, "Too many references: cannot splice"),
   (110, "Connection timed out"),
   (111, "Connection refused"),
   (112, "Host is down"),
   (113, "No route to host"),
   (114, "Operation already in progress"),
   (115, "Operation now in progress"),
   (116, "Stale file handle"),
   (117, "Structure needs cleaning"),
   (118, "Not a XENIX named type file"),
   (119, "No XENIX semaphores available"),
   (120, "Is a named type file"),
   (121, "Remote I/O error"),
   (122, "Disk quota exceeded"),
   (123, "No medium found"),
   (124, "Wrong medium type"),
   (125, "Operation canceled"),
   (126, "Required key not available"),
   (127, "Key has expired"),
   (128, "Key has been revoked"),
   (129, "Key was rejected by service"),
   (130, "Owner died"),
   (131, "State not recoverable"),
   (132, "Operation not possible due to RF-kill"),
   (133, "Memory page has hardware error")]

/-- The usual text of a cause. -/
def text : OsError → String
  | notPermitted => "Operation not permitted"
  | noEntry => "No such file or directory"
  | notExecutable => "Exec format error"
  | denied => "Permission denied"
  | busy => "Device or resource busy"
  | .exists => "File exists"
  | notFolder => "Not a directory"
  | isFolder => "Is a directory"
  | invalid => "Invalid argument"
  | noSpace => "No space left on device"
  | readOnly => "Read-only file system"
  | nameTooLong => "File name too long"
  | notEmpty => "Directory not empty"
  | tooManyLinks => "Too many levels of symbolic links"
  | other n => (furtherTexts.lookup n).getD ("Unknown error " ++ toString n)

/-- A cause as it is shown. -/
def message (e : OsError) : String :=
  e.text ++ " (os error " ++ toString e.number ++ ")"

end OsError
end Files
end JobSpool
