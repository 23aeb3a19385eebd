/-! Why the way to a file or a directory is closed. -/
namespace JvmRoutes.Files

/-- Why a path cannot be followed, or a file or a directory cannot be made. -/
inductive Obstacle
  | exists
  | notDirectory
  | isDirectory
  | tooLong
  | holdsNul
  deriving DecidableEq, Repr

def Obstacle.message : Obstacle → String
  | .exists => "There is a file in place of the directory"
  | .notDirectory => "A file stands in the way of the path"
  | .isDirectory => "There is a directory in place of the file"
  | .tooLong => "The path or a name in it is too long"
  | .holdsNul => "The path holds a NUL"

end JvmRoutes.Files
