namespace NamelistCatalog

/-- Why a step on files fails. -/
inductive IoFault where
  | notFound
  | alreadyExists
  | notADirectory
  | isADirectory
  | busy
  | tooManyLinks
  | invalidUtf8
  /-- A fault that only the system knows, in its words. -/
  | other (text : String)
deriving DecidableEq, Repr

def IoFault.message : IoFault → String
  | .notFound => "No such file or directory (os error 2)"
  | .alreadyExists => "File exists (os error 17)"
  | .notADirectory => "Not a directory (os error 20)"
  | .isADirectory => "Is a directory (os error 21)"
  | .busy => "Device or resource busy (os error 16)"
  | .tooManyLinks => "Too many levels of symbolic links (os error 40)"
  | .invalidUtf8 => "stream did not contain valid UTF-8"
  | .other text => text

end NamelistCatalog
