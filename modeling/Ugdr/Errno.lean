/-! # Error numbers

The `int` results of the source are zero or an errno value. Statuses that come
from the operating system or from an injected backend are arbitrary.
-/

namespace Ugdr

inductive Errno
  | enoent
  | eio
  | eagain
  | enomem
  | eacces
  | ebusy
  | einval
  | enospc
  | eproto
  | eoverflow
  | emsgsize
  | eopnotsupp
  | eprotonosupport
  /-- Any other value reported by code outside this repository. -/
  | other (code : Int)
  deriving DecidableEq, Repr

/-- The `int` status convention: `none` is zero. -/
abbrev Status := Option Errno

/-- The value of the constant. -/
def Errno.number : Errno → Int
  | enoent => 2
  | eio => 5
  | eagain => 11
  | enomem => 12
  | eacces => 13
  | ebusy => 16
  | einval => 22
  | enospc => 28
  | eproto => 71
  | eoverflow => 75
  | emsgsize => 90
  | eprotonosupport => 93
  | eopnotsupp => 95
  | other code => code

end Ugdr
