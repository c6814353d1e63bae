import Pseudonym.Value

namespace Pseudonym.Settings

def defaultProfiles : Value :=
  let profile (type : String) (plugins : List String) : Value :=
    .ofPairs [("source_type", .text type), ("plugins", .list (plugins.map .text))]
  .ofPairs [("module", profile "module" []), ("script", profile "script" []),
    ("javascript", profile "module" ["typescript", "jsx"])]

def defaultPatterns : List String :=
  ["*.js", "*.mjs", "*.cjs", "*.jsx", "*.ts", "*.mts", "*.cts", "*.tsx"]

def defaultLogFormat : String := "%(asctime)s - %(name)s - %(levelname)s - %(message)s"

def defaults : Value :=
  .ofPairs [
    ("grammar", .ofPairs [("default_profile", .text "module"), ("unknown_hint", .text "reject"),
      ("profiles", defaultProfiles)]),
    ("substitutes", .ofPairs [("locale", .text "en_US"), ("seed", .null), ("separator", .text "_"),
      ("min_number", .int 1), ("max_number", .int 100)]),
    ("redaction", .ofPairs [("include_mapping", .bool false)]),
    ("processing", .ofPairs [("encoding", .text "utf-8"), ("output_suffix", .text "_redacted"),
      ("write_mapping", .bool true), ("backup_original", .bool false),
      ("file_patterns", .list (defaultPatterns.map .text)),
      ("extension_hints", .ofPairs ([".jsx", ".ts", ".mts", ".cts", ".tsx"].map
        fun ending => (ending, .text "javascript")))]),
    ("logging", .ofPairs [("level", .text "INFO"), ("format", .text defaultLogFormat),
      ("file", .null)])]

end Pseudonym.Settings
