import Foreman.Text.Basic

namespace Foreman.Text

def withSlash (path : Text) : Text :=
  if path.isEmpty then "/"
  else if path = "." then []
  else if path.getLast? = some '/' then path
  else path ++ "/"

def noSlash (path : Text) : Text :=
  if path.isEmpty then "."
  else if path.getLast? = some '/' && path.length != 1 then path.dropLast
  else path

def isAbsolute (path : Text) : Bool :=
  path.head? = some '/'

end Foreman.Text
