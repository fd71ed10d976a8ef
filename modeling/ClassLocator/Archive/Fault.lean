namespace ClassLocator.Archive

inductive Fault where
  | outOfData
  | tooShort
  | noEndRecord
  | severalDisks
  | noRoomForWideEndRecord
  | noWideEndRecord
  | misplacedDirectory
  | badDirectoryHeader
  | badEncryptionField
  | unknownEncryptionVendor
  | unknownEncryptionVersion
  | unknownEncryptionStrength
  | noEncryptionField
  | headerTooFar
  | encrypted
  | badLocalHeader
  | unknownCompression
  deriving DecidableEq, Repr

inductive DataFault where
  | corrupt
  | incomplete
  | wrongChecksum
  deriving DecidableEq, Repr

namespace Fault

def invalid (what : String) : String := "invalid Zip archive: " ++ what

def unsupported (what : String) : String := "unsupported Zip archive: " ++ what

def message : Fault → String
  | outOfData => "failed to fill whole buffer"
  | tooShort => invalid "Invalid zip header"
  | noEndRecord => invalid "Could not find central directory end"
  | severalDisks => unsupported "Support for multi-disk files is not implemented"
  | noRoomForWideEndRecord => invalid "File cannot contain ZIP64 central directory end"
  | noWideEndRecord => invalid "Could not find ZIP64 central directory end"
  | misplacedDirectory => invalid "Invalid central directory size or offset"
  | badDirectoryHeader => invalid "Invalid Central Directory header"
  | badEncryptionField => unsupported "AES extra data field has an unsupported length"
  | unknownEncryptionVendor => invalid "Invalid AES vendor"
  | unknownEncryptionVersion => invalid "Invalid AES vendor version"
  | unknownEncryptionStrength => invalid "Invalid AES encryption strength"
  | noEncryptionField => invalid "AES encryption without AES extra data field"
  | headerTooFar => invalid "Archive header is too large"
  | encrypted => unsupported "Password required to decrypt file"
  | badLocalHeader => invalid "Invalid local file header"
  | unknownCompression => unsupported "Compression method not supported"

end Fault

def DataFault.message : DataFault → String
  | corrupt => "corrupt deflate stream"
  | incomplete => "incomplete deflate stream"
  | wrongChecksum => "Invalid checksum"

end ClassLocator.Archive
