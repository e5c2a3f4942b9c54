/-! What the tool says about itself. -/
namespace WordMachine.CommandLine.Help

/-- Lines, each with its end. -/
def page (lines : List String) : String := String.join (lines.map (· ++ "\n"))

def version : String := page ["dcpukit 0.1.0"]

def usage : List String :=
  ["usage: dcpukit [-h] [--version] [--verbose] [--quiet] [--log-file LOG_FILE]",
    "               command ..."]

def tool : String := page <| usage ++
  ["",
    "DCPU toolkit — assemble, run, trace, disassemble",
    "",
    "positional arguments:",
    "  command",
    "    asm                Assemble source to binary or listing",
    "    run                Run a program on the emulator",
    "    disasm             Disassemble a binary word file",
    "",
    "options:",
    "  -h, --help           show this help message and exit",
    "  --version            show program's version number and exit",
    "  --verbose, -v        Increase verbosity (-v, -vv for tracebacks)",
    "  --quiet, -q          Suppress all output except errors",
    "  --log-file LOG_FILE  Write log to file",
    "",
    "commands:",
    "  asm        Assemble DCPU source to a binary word file or listing",
    "  run        Run a program until it halts, faults or hits the step limit",
    "  disasm     Disassemble a binary word file"]

def asm : String := page
  ["usage: dcpukit asm [-h] [-o OUTPUT] [--listing] input",
    "",
    "positional arguments:",
    "  input                 Input assembly file",
    "",
    "options:",
    "  -h, --help            show this help message and exit",
    "  -o OUTPUT, --output OUTPUT",
    "                        Output file (.bin or .lst)",
    "  --listing             Print listing to stdout"]

def run : String := page
  ["usage: dcpukit run [-h] [--trace] [--max-steps MAX_STEPS] [--sp SP]",
    "                   [--break ADDR] [--dump START:LEN]",
    "                   input",
    "",
    "positional arguments:",
    "  input                 Assembly source or .bin word file",
    "",
    "options:",
    "  -h, --help            show this help message and exit",
    "  --trace               Print a register trace row per step",
    "  --max-steps MAX_STEPS",
    "                        Step limit (default: 1000000)",
    "  --sp SP               Initial stack pointer (hex, default 0x0000)",
    "  --break ADDR          Stop at address (hex), repeatable",
    "  --dump START:LEN      Dump memory after the run, e.g. 0x1000:16"]

def disasm : String := page
  ["usage: dcpukit disasm [-h] [--base BASE] [-o OUTPUT] input",
    "",
    "positional arguments:",
    "  input                 Input .bin file",
    "",
    "options:",
    "  -h, --help            show this help message and exit",
    "  --base BASE           Load address (hex)",
    "  -o OUTPUT, --output OUTPUT",
    "                        Output file (default: stdout)"]

end WordMachine.CommandLine.Help
