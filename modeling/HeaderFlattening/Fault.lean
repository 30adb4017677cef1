import HeaderFlattening.Text.Splice

/-!
What can go wrong with files and streams, and the errors that end a conversion.
-/

set_option autoImplicit false
namespace HeaderFlattening

inductive FileFault where
  | notFound
  | notADirectory
  | isADirectory
  | alreadyExists
  | busy
  | nameTooLong
  /-- The path holds a NUL. -/
  | nulInName
  /-- Any other failure, in the words of the system. -/
  | other (text : Text)
  deriving DecidableEq, Repr

def FileFault.message : FileFault → Text
  | .notFound => "No such file or directory (os error 2)".toList
  | .notADirectory => "Not a directory (os error 20)".toList
  | .isADirectory => "Is a directory (os error 21)".toList
  | .alreadyExists => "File exists (os error 17)".toList
  | .busy => "Device or resource busy (os error 16)".toList
  | .nameTooLong => "File name too long (os error 36)".toList
  | .nulInName => "file name contained an unexpected NUL byte".toList
  | .other text => text

inductive StreamFault where
  /-- The bytes of a line are not UTF-8. -/
  | invalidUtf8
  /-- The sink has no room left. -/
  | full
  | file (fault : FileFault)
  deriving DecidableEq, Repr

def StreamFault.message : StreamFault → Text
  | .invalidUtf8 => "stream did not contain valid UTF-8".toList
  | .full => "failed to write whole buffer".toList
  | .file fault => fault.message

inductive ConvertError where
  | inputNotFound (path : Text) (fault : FileFault)
  | outputNotWritable (path : Text) (fault : FileFault)
  | tooManyTokens (line limit : Nat)
  /-- A part of the line could not be replaced. -/
  | replacement (error : TextError)
  | stream (fault : StreamFault)
  deriving DecidableEq, Repr

namespace ConvertError

def message : ConvertError → Text
  | .inputNotFound path _ => "Input file not found: ".toList ++ path
  | .outputNotWritable path _ => "Output file not writable: ".toList ++ path
  | .tooManyTokens line limit =>
    "Line ".toList ++ Text.ofNat line ++ " has more than ".toList ++ Text.ofNat limit
      ++ " tokens".toList
  | .replacement error => error.message
  | .stream fault => "I/O error: ".toList ++ fault.message

def code : ConvertError → Text
  | .inputNotFound .. => "flathdr::input_not_found".toList
  | .outputNotWritable .. => "flathdr::output_not_writable".toList
  | .tooManyTokens .. => "flathdr::too_many_tokens".toList
  | .replacement _ => "flathdr::buffer_capacity".toList
  | .stream _ => "flathdr::io".toList

/-- What the user can do about the error. -/
def help? : ConvertError → Option Text
  | .tooManyTokens .. => some
      "raise `conversion.max_tokens` or set `conversion.token_overflow = \"skip\"`".toList
  | _ => none

/-- The fault that kept a file from being opened. -/
def cause? : ConvertError → Option FileFault
  | .inputNotFound _ fault | .outputNotWritable _ fault => some fault
  | _ => none

end ConvertError
end HeaderFlattening
