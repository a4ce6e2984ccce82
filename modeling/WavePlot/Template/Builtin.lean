/-!
# The built-in template

The script that plots one triangle wave with every parameter in its place.
-/

namespace WavePlot.Template

def builtinLines : List String :=
  [
    "set terminal pngcairo size \x7bPLOT_WIDTH\x7d,\x7bPLOT_HEIGHT\x7d enhanced",
    "set output '\x7bOUTPUT_FILE_NAME\x7d'",
    "",
    "set xrange [\x7bX_RANGE_START\x7d:\x7bX_RANGE_END\x7d]",
    "set yrange [\x7bY_RANGE_START\x7d:\x7bY_RANGE_END\x7d]",
    "set samples 2000",
    "set grid",
    "set xzeroaxis",
    "unset key",
    "",
    "period = \x7bPERIOD\x7d",
    "amplitude = \x7bAMPLITUDE\x7d",
    "shift = \x7bSHIFT\x7d",
    "",
    "triangle(x) = (2.0 * amplitude / pi) * asin(sin(2.0 * pi * (x - shift) / period))",
    "",
    "plot triangle(x) with lines linewidth \x7bLINE_WIDTH\x7d linecolor rgb '\x7bCOLOR\x7d'"]

def builtin : String := String.join (builtinLines.map (· ++ "\n"))

end WavePlot.Template
