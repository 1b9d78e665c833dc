/-
FieldCheck.Fault — what can go wrong, and how it is worded.

A fault is named by its cause and carries what the wording needs. The
functions of the library return faults; `Fault.message` is the one place
where they are put into words. A fault of `recordsFailed` wraps the cause for
which a file of records could not be loaded.
-/
import FieldCheck.Number.Decimal
import FieldCheck.Text.Quoted
import FieldCheck.Text.Utf8

namespace FieldCheck

/-! ## Causes -/

/-- A reason why an operation has no result. The `kind` of a value is the
name of its type. -/
inductive Fault where
  /-- A descriptor that is not a text. -/
  | descriptorNotText (kind : String)
  /-- A value without elements where a sequence is needed. -/
  | notIterable (kind : String)
  /-- A label that is not a text. -/
  | labelNotText (index : Nat) (kind : String)
  /-- A value that cannot be a key. -/
  | unhashable (kind : String)
  /-- A message of a kind that cannot stand in front of a text. -/
  | notPrefixable (kind : String)
  /-- An entry of a list of messages that has no elements. -/
  | entryNotSequence (index : Nat)
  /-- An entry of a list of messages that is not a pair. -/
  | entryLength (index length : Nat)
  /-- A whole number with too many digits to be written. -/
  | tooLongToWrite
  /-- A run of digits too long to be read. -/
  | tooLongToRead (digits : Nat)
  /-- A message catalog that is not a mapping. -/
  | catalogNotMapping (kind : String)
  /-- A section of a message catalog that is not a mapping. -/
  | sectionNotMapping (section_ kind : String)
  /-- A message key that no source of messages knows. -/
  | unknownMessage (key : String)
  /-- A configuration that its schema refuses. -/
  | invalidConfiguration (path details : String)
  /-- A catalog location of an unknown kind. -/
  | catalogScheme (scheme uri : String)
  /-- A record location of an unknown kind. -/
  | recordsScheme (scheme : String)
  /-- A location whose host is malformed. -/
  | malformedHost (reason : String)
  /-- A value that is no location at all. -/
  | notLocation (kind : String)
  /-- A path that names no regular file. -/
  | notRegularFile (path : String)
  /-- A path that names nothing. -/
  | noSuchFile (path : String)
  /-- A folder where a file is needed. -/
  | isFolder (path : String)
  /-- A path that leads through a file. -/
  | notFolder (path : String)
  /-- A path with a part that is too long. -/
  | nameTooLong (path : String)
  /-- A folder that cannot be made because a file has its name. -/
  | alreadyExists (path : String)
  /-- A path that holds the character with code zero. -/
  | nullInPath
  /-- Bytes that are not UTF-8. -/
  | notUtf8 (fault : Text.Utf8.Fault)
  /-- A character that no document may hold, with its code and where it stands. -/
  | specialCharacter (source : String) (code index : Nat)
  /-- A text that is not JSON. -/
  | notJson (message : String)
  /-- A request over the network that failed. -/
  | web (message : String)
  /-- A catalog that could not be fetched. -/
  | fetchFailed (uri message : String)
  /-- Records that could not be loaded. -/
  | recordsFailed (uri : String) (cause : Fault)
  /-- A remote file above the size limit. -/
  | remoteTooLarge (megabytes : Nat)
  /-- A record that lacks required fields. -/
  | fieldsRequired (labels : List String) (text : String)
  deriving Repr

/-! ## Wording -/

namespace Fault

/-- What is said when a message is put in front of a text. -/
def prefixMessage (kind : String) : String :=
  if kind = "list" then "can only concatenate list (not \"str\") to list"
  else if kind = "tuple" then "can only concatenate tuple (not \"str\") to tuple"
  else if kind = "bytes" then "can't concat str to bytes"
  else "unsupported operand type(s) for +: '" ++ kind ++ "' and 'str'"

/-- How the limit on digits is named. -/
def digitLimitMessage : String :=
  "Exceeds the limit (4300 digits) for integer string conversion"

/-- How the way around the limit on digits is named. -/
def digitLimitAdvice : String := "use sys.set_int_max_str_digits() to increase the limit"

/-- A fault of the file system, with its number. -/
def fileMessage (number : Nat) (reason path : String) : String :=
  "[Errno " ++ Decimal.text number ++ "] " ++ reason ++ ": " ++ Text.quote path

/-- Where and how bytes fail to be UTF-8. -/
def utf8Message (f : Text.Utf8.Fault) : String :=
  let place :=
    if f.more = 0 then
      "byte 0x" ++ String.ofList (Text.hexPadded 2 f.byte) ++ " in position "
        ++ Decimal.text f.index
    else "bytes in position " ++ Decimal.text f.index ++ "-" ++ Decimal.text (f.index + f.more)
  "'utf-8' codec can't decode " ++ place ++ ": " ++ f.flaw.message

/-- Which character of a document is refused, and where. -/
def characterMessage (source : String) (code index : Nat) : String :=
  "unacceptable character #x" ++ String.ofList (Text.hexPadded 4 code)
    ++ ": special characters are not allowed\n  in \"" ++ source ++ "\", position "
    ++ Decimal.text index

/-- The wording of a fault. -/
def message : Fault → String
  | descriptorNotText kind => "Field descriptor must be a string, got " ++ kind
  | notIterable kind => "'" ++ kind ++ "' object is not iterable"
  | labelNotText i kind =>
    "sequence item " ++ Decimal.text i ++ ": expected str instance, " ++ kind ++ " found"
  | unhashable kind => "unhashable type: '" ++ kind ++ "'"
  | notPrefixable kind => prefixMessage kind
  | entryNotSequence i =>
    "cannot convert dictionary update sequence element #" ++ Decimal.text i ++ " to a sequence"
  | entryLength i n =>
    "dictionary update sequence element #" ++ Decimal.text i ++ " has length "
      ++ Decimal.text n ++ "; 2 is required"
  | tooLongToWrite => digitLimitMessage ++ "; " ++ digitLimitAdvice
  | tooLongToRead n =>
    digitLimitMessage ++ ": value has " ++ Decimal.text n ++ " digits; " ++ digitLimitAdvice
  | catalogNotMapping kind => "Message catalog must be a mapping, got " ++ kind
  | sectionNotMapping s kind =>
    "Message catalog section '" ++ s ++ "' must be a mapping, got " ++ kind
  | unknownMessage key => Text.quote ("Unknown message key: " ++ key)
  | invalidConfiguration path details => "Invalid configuration in " ++ path ++ ": " ++ details
  | catalogScheme scheme uri => "Unsupported URI scheme: " ++ scheme ++ " in " ++ uri
  | recordsScheme scheme => "Unsupported URI scheme: " ++ scheme
  | malformedHost reason => reason
  | notLocation kind => "'" ++ kind ++ "' object has no attribute 'decode'"
  | notRegularFile path => "File not found or not a regular file: " ++ path
  | noSuchFile path => fileMessage 2 "No such file or directory" path
  | isFolder path => fileMessage 21 "Is a directory" path
  | notFolder path => fileMessage 20 "Not a directory" path
  | nameTooLong path => fileMessage 36 "File name too long" path
  | alreadyExists path => fileMessage 17 "File exists" path
  | nullInPath => "embedded null byte"
  | notUtf8 f => utf8Message f
  | specialCharacter source code index => characterMessage source code index
  | notJson m => m
  | web m => m
  | fetchFailed uri m => "Failed to fetch message catalog from " ++ uri ++ ": " ++ m
  | recordsFailed uri cause => "Failed to load records from " ++ uri ++ ": " ++ cause.message
  | remoteTooLarge n => "Remote file exceeds " ++ Decimal.text n ++ " MB limit"
  | fieldsRequired _ text => text

end Fault

end FieldCheck
