namespace Pseudonym.CommandLine

def versionText : String := "Code Redaction Tool v1.0.0\n"

def usage : String :=
"usage: code-redact [-h] [-o OUTPUT] [--dir] [-r] [-c CONFIG] [-l LANGUAGE]
                   [--mapping | --no-mapping] [--seed SEED] [--backup] [-v]
                   [--version]
                   input
"

def description : String :=
  "Code Redaction Tool - Replace identifiers in source code with readable substitutes\n"

def optionsHelp : String :=
"positional arguments:
  input                 Input file or directory path ('-' for stdin)

options:
  -h, --help            show this help message and exit
  -o OUTPUT, --output OUTPUT
                        Output file or directory path (auto-generated if not
                        specified)
  --dir                 Process directory instead of single file
  -r, --recursive       Process directories recursively (only with --dir)
  -c CONFIG, --config CONFIG
                        Path to custom configuration file (YAML)
  -l LANGUAGE, --language LANGUAGE
                        Language hint selecting the grammar profile (e.g.
                        javascript, module, script)
  --mapping             Write the identifier mapping (stderr in stdin mode,
                        JSON side-car otherwise)
  --no-mapping          Do not write the identifier mapping
  --seed SEED           Seed for substitute generation
  --backup              Create backup of original file before redaction
  -v, --verbose         Enable verbose output
  --version             show program's version number and exit
"

def examples : String :=
"Examples:
  # Redact a single file
  code-redact app.js -o app_redacted.js

  # Parse with TypeScript and JSX enabled
  code-redact component.tsx --language javascript

  # Redact every source file in a directory tree
  code-redact src/ -o redacted/ --dir -r

  # Read from stdin, write to stdout, print the mapping to stderr
  cat app.js | code-redact - --mapping

  # Reproducible substitutes
  code-redact app.js --seed 42
"

def helpText : String :=
  usage ++ "\n" ++ description ++ "\n" ++ optionsHelp ++ "\n" ++ examples ++ "        \n"

end Pseudonym.CommandLine
