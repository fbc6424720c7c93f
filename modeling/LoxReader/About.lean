/-! # About the program -/

namespace LoxReader

def version : String := "0.1.0"

/-- The terms that the program states of itself. -/
def terms : String := "MIT"

end LoxReader
