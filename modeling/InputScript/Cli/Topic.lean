import InputScript.Desktop.Registry

namespace InputScript.Cli

inductive Topic where
  | program
  | play
  | disassemble
  | helpScript
  | listDesktops
deriving DecidableEq

inductive Flag where
  | help
  | ignoreSpace
  | noRandSleep
  | seed
  | desktop
  | verbose
deriving DecidableEq

namespace Flag

def spellings : Flag → List String
  | .help => ["-h", "--help"]
  | .ignoreSpace => ["--ignore-space"]
  | .noRandSleep => ["--no-rand-sleep"]
  | .seed => ["--seed"]
  | .desktop => ["--desktop"]
  | .verbose => ["--verbose", "-v"]

def label (f : Flag) : String :=
  "/".intercalate f.spellings

def takesValue : Flag → Bool
  | .seed | .desktop => true
  | _ => false

end Flag

namespace Topic

def commands : List Topic :=
  [.play, .disassemble, .helpScript, .listDesktops]

def name : Topic → String
  | .program => "vinput"
  | .play => "play"
  | .disassemble => "disassemble"
  | .helpScript => "help-script"
  | .listDesktops => "list-desktops"

def ofName? (name : String) : Option Topic :=
  commands.find? (·.name == name)

def invocation : Topic → String
  | .program => "vinput"
  | t => "vinput " ++ t.name

def flags : Topic → List Flag
  | .play => [.help, .ignoreSpace, .noRandSleep, .seed, .desktop, .verbose]
  | .disassemble => [.help, .ignoreSpace]
  | _ => [.help]

def spellings (t : Topic) : List (String × Flag) :=
  t.flags.flatMap fun f => f.spellings.map (·, f)

def flagSpelled? (t : Topic) (spelling : String) : Option Flag :=
  t.spellings.lookup spelling

def takesFiles : Topic → Bool
  | .play | .disassemble => true
  | _ => false

def lines (l : List String) : String :=
  String.join (l.map (· ++ "\n"))

def usage : Topic → String
  | .program => lines ["usage: vinput [-h] \x7bplay,disassemble,help-script,list-desktops\x7d ..."]
  | .play => lines
    ["usage: vinput play [-h] [--ignore-space] [--no-rand-sleep] [--seed SEED]",
      "                   [--desktop \x7bdry-run,pynput\x7d] [--verbose]",
      "                   [FILE ...]"]
  | .disassemble => lines ["usage: vinput disassemble [-h] [--ignore-space] [FILE ...]"]
  | .helpScript => lines ["usage: vinput help-script [-h]"]
  | .listDesktops => lines ["usage: vinput list-desktops [-h]"]

def explanation : Topic → String
  | .program => lines
    ["vinput - play keyboard and mouse scripts on the desktop",
      "",
      "positional arguments:",
      "  \x7bplay,disassemble,help-script,list-desktops\x7d",
      "                        Available commands",
      "    play                Compile and play scripts",
      "    disassemble         Compile scripts and list the instructions",
      "    help-script         Show the script grammar",
      "    list-desktops       List desktop backends",
      "",
      "options:",
      "  -h, --help            show this help message and exit",
      "",
      "Examples:",
      "  vinput play script.vin                     # Play a script",
      "  vinput play --no-rand-sleep script.vin     # Play with exact timing",
      "  vinput play --desktop dry-run script.vin   # Print events instead of sending them",
      "  echo 'hello\\n' | vinput play              # Play a script from stdin",
      "  vinput disassemble script.vin              # List the compiled instructions",
      "  vinput help-script                         # Show the script grammar",
      "  vinput list-desktops                       # Show desktop backends",
      "        "]
  | .play => lines
    ["positional arguments:",
      "  FILE                  Script files to compile in order ('-' or none reads",
      "                        stdin)",
      "",
      "options:",
      "  -h, --help            show this help message and exit",
      "  --ignore-space        Skip whitespace instead of typing it",
      "  --no-rand-sleep       Sleep exactly as written instead of randomizing",
      "                        durations",
      "  --seed SEED           Seed for randomized sleeps (default: system entropy)",
      "  --desktop \x7bdry-run,pynput\x7d",
      "                        Desktop backend to use (default: first available)",
      "  --verbose, -v         Print each instruction"]
  | .disassemble => lines
    ["positional arguments:",
      "  FILE            Script files to compile in order ('-' or none reads stdin)",
      "",
      "options:",
      "  -h, --help      show this help message and exit",
      "  --ignore-space  Skip whitespace instead of typing it"]
  | .helpScript | .listDesktops => lines
    ["options:", "  -h, --help  show this help message and exit"]

def help (t : Topic) : String :=
  t.usage ++ "\n" ++ t.explanation

end Topic

end InputScript.Cli
