/-!
# Usage and help texts

Both are laid out for a line of eighty columns.
-/

namespace WavePlot.CommandLine

def programName : String := "trianglewave_plotter.py"

def usageLines : List String :=
  [
    "usage: trianglewave_plotter.py [-h] [--template TEMPLATE] [--gnuplot GNUPLOT]",
    "                               [--script-only] [--show-config]",
    "                               output"]

def helpLines : List String :=
  [
    "",
    "Plot a triangle wave to a PNG file via gnuplot.",
    "",
    "positional arguments:",
    "  output               Name of the PNG file gnuplot should write.",
    "",
    "options:",
    "  -h, --help           show this help message and exit",
    "  --template TEMPLATE  Path to a gnuplot template file. Default: the built-in",
    "                       template.",
    "  --gnuplot GNUPLOT    gnuplot executable to run. Default: gnuplot.",
    "  --script-only        Print the generated gnuplot script instead of running",
    "                       gnuplot.",
    "  --show-config        Print the normalized plot parameters before plotting.",
    "",
    "PLOT PARAMETERS",
    "",
    "Every parameter is given as a single --name=value token. Unknown names abort",
    "the run before anything is read or written.",
    "",
    "  --period=<number > 0>        wave period (default 2*pi)",
    "  --amplitude=<number > 0>     wave amplitude (default 1.0)",
    "  --shift=<number>             phase shift, normalized into [0, 2*pi) (default 0)",
    "  --color=<color>              line color; #RGB is expanded to #rrggbb,",
    "                               anything else (e.g. \"green\") is passed to gnuplot",
    "                               (default #ffd500)",
    "  --lineWidth=<integer >= 1>   line width (default 8)",
    "  --xRangeStart=<number>       x range start (default -4*pi)",
    "  --xRangeEnd=<number>         x range end (default 4*pi)",
    "  --yRangeStart=<number>       y range start (default -1.5)",
    "  --yRangeEnd=<number>         y range end (default 1.5)",
    "  --plotWidth=<size>           image width, passed through as-is (default 960)",
    "  --plotHeight=<size>          image height, passed through as-is (default 600)",
    "",
    "TEMPLATES",
    "",
    "A template is a gnuplot script containing the placeholders",
    "",
    "  \x7bPERIOD\x7d \x7bAMPLITUDE\x7d \x7bSHIFT\x7d \x7bCOLOR\x7d \x7bLINE_WIDTH\x7d",
    "  \x7bX_RANGE_START\x7d \x7bX_RANGE_END\x7d \x7bY_RANGE_START\x7d \x7bY_RANGE_END\x7d",
    "  \x7bPLOT_WIDTH\x7d \x7bPLOT_HEIGHT\x7d \x7bOUTPUT_FILE_NAME\x7d",
    "",
    "Each occurrence is replaced with the corresponding value. Placeholders may be",
    "repeated or omitted.",
    "",
    "Examples",
    "",
    "  python trianglewave_plotter.py wave.png",
    "  python trianglewave_plotter.py --period=3 --amplitude=0.5 --color=#f0a wave.png",
    "  python trianglewave_plotter.py --template example/triangle-wave.plt wave.png",
    "  python trianglewave_plotter.py --script-only wave.png > wave.plt"]

def unlines (lines : List String) : String := String.join (lines.map (· ++ "\n"))

def usageText : String := unlines usageLines

def helpText : String := unlines (usageLines ++ helpLines)

end WavePlot.CommandLine
