namespace Provisioner

inductive IoError where
  | notFound
  | permissionDenied
  | notADirectory
  | isADirectory
  | nameTooLong
  | tooManyLinks
  | emptyPath
  | zeroInPath
  | notText
  | other (text : String)
  deriving DecidableEq, Repr

def IoError.message : IoError → String
  | .notFound => "No such file or directory (os error 2)"
  | .permissionDenied => "Permission denied (os error 13)"
  | .notADirectory => "Not a directory (os error 20)"
  | .isADirectory => "Is a directory (os error 21)"
  | .nameTooLong => "File name too long (os error 36)"
  | .tooManyLinks => "Too many levels of symbolic links (os error 40)"
  | .emptyPath => "cannot make an empty path absolute"
  | .zeroInPath => "file name contained an unexpected NUL byte"
  | .notText => "stream did not contain valid UTF-8"
  | .other text => text

end Provisioner
