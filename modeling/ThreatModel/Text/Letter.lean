/-!
# Letters and digits

Which characters are letters or digits in any script: those with the Unicode property `Alphabetic` or the
general category of a number.
-/

namespace ThreatModel.Text

/-- The letters and digits beyond ASCII, as first and last code points of runs. Gaps of a few code points
to which no character is assigned are closed. -/
def letterRuns : List (Nat × Nat) := [
  (170, 170), (178, 179), (181, 181), (185, 186), (188, 190), (192, 214), (216, 246), (248, 705),
  (710, 721), (736, 740), (748, 748), (750, 750), (837, 837), (880, 884), (886, 893), (895, 895),
  (902, 902), (904, 1013), (1015, 1153), (1162, 1369), (1376, 1416), (1456, 1469), (1471, 1471),
  (1473, 1474), (1476, 1477), (1479, 1522), (1552, 1562), (1568, 1623), (1625, 1641), (1646, 1747),
  (1749, 1756), (1761, 1768), (1773, 1788), (1791, 1791), (1808, 1855), (1869, 2026), (2036, 2037),
  (2042, 2042), (2048, 2071), (2074, 2092), (2112, 2136), (2144, 2183), (2185, 2190), (2208, 2249),
  (2260, 2271), (2275, 2281), (2288, 2363), (2365, 2380), (2382, 2384), (2389, 2403), (2406, 2415),
  (2417, 2489), (2493, 2508), (2510, 2545), (2548, 2553), (2556, 2556), (2561, 2617), (2622, 2636),
  (2641, 2677), (2689, 2745), (2749, 2764), (2768, 2799), (2809, 2812), (2817, 2873), (2877, 2892),
  (2902, 2927), (2929, 3020), (3024, 3058), (3072, 3129), (3133, 3148), (3157, 3183), (3192, 3198),
  (3200, 3203), (3205, 3257), (3261, 3276), (3285, 3386), (3389, 3404), (3406, 3406), (3412, 3448),
  (3450, 3526), (3535, 3571), (3585, 3642), (3648, 3654), (3661, 3661), (3664, 3673), (3713, 3769),
  (3771, 3782), (3789, 3789), (3792, 3807), (3840, 3840), (3872, 3891), (3904, 3971), (3976, 4028),
  (4096, 4150), (4152, 4152), (4155, 4169), (4176, 4253), (4256, 4346), (4348, 4954), (4969, 5007),
  (5024, 5117), (5121, 5740), (5743, 5759), (5761, 5786), (5792, 5866), (5870, 5907), (5919, 5939),
  (5952, 6067), (6070, 6088), (6103, 6103), (6108, 6108), (6112, 6137), (6160, 6456), (6470, 6618),
  (6656, 6683), (6688, 6750), (6753, 6772), (6784, 6809), (6823, 6823), (6847, 6848), (6860, 6862),
  (6912, 6963), (6965, 6979), (6981, 7001), (7040, 7081), (7084, 7141), (7143, 7153), (7168, 7222),
  (7232, 7293), (7296, 7359), (7401, 7404), (7406, 7411), (7413, 7414), (7418, 7615), (7655, 7668),
  (7680, 8124), (8126, 8126), (8130, 8140), (8144, 8155), (8160, 8172), (8178, 8188), (8304, 8313),
  (8319, 8329), (8336, 8348), (8450, 8450), (8455, 8455), (8458, 8467), (8469, 8469), (8473, 8477),
  (8484, 8484), (8486, 8486), (8488, 8488), (8490, 8493), (8495, 8505), (8508, 8511), (8517, 8521),
  (8526, 8526), (8528, 8585), (9312, 9371), (9398, 9471), (10102, 10131), (11264, 11492),
  (11499, 11502), (11506, 11507), (11517, 11517), (11520, 11631), (11648, 11775), (11823, 11823),
  (12293, 12295), (12321, 12329), (12337, 12341), (12344, 12348), (12353, 12438), (12445, 12447),
  (12449, 12538), (12540, 12686), (12690, 12693), (12704, 12735), (12784, 12799), (12832, 12841),
  (12872, 12879), (12881, 12895), (12928, 12937), (12977, 12991), (13312, 19903), (19968, 42124),
  (42192, 42237), (42240, 42508), (42512, 42539), (42560, 42606), (42612, 42619), (42623, 42735),
  (42775, 42783), (42786, 42888), (42891, 42969), (42994, 43013), (43015, 43047), (43056, 43061),
  (43072, 43123), (43136, 43203), (43205, 43205), (43216, 43225), (43250, 43255), (43259, 43259),
  (43261, 43306), (43312, 43346), (43360, 43442), (43444, 43455), (43471, 43481), (43488, 43609),
  (43616, 43638), (43642, 43710), (43712, 43712), (43714, 43714), (43739, 43741), (43744, 43759),
  (43762, 43765), (43777, 43866), (43868, 43881), (43888, 44010), (44016, 55291), (63744, 64217),
  (64256, 64296), (64298, 64433), (64467, 64829), (64848, 64967), (65008, 65019), (65136, 65276),
  (65296, 65305), (65313, 65338), (65345, 65370), (65382, 65500), (65536, 65629), (65664, 65786),
  (65799, 65843), (65856, 65912), (65930, 65931), (66176, 66256), (66273, 66461), (66464, 66511),
  (66513, 66517), (66560, 66915), (66928, 67004), (67072, 67431), (67456, 67514), (67584, 67669),
  (67672, 67702), (67705, 67759), (67808, 67867), (67872, 67897), (67968, 68149), (68160, 68168),
  (68192, 68222), (68224, 68255), (68288, 68295), (68297, 68324), (68331, 68335), (68352, 68405),
  (68416, 68497), (68521, 68527), (68608, 68680), (68736, 68921), (69216, 69292), (69296, 69297),
  (69376, 69445), (69457, 69460), (69488, 69505), (69552, 69579), (69600, 69701), (69714, 69743),
  (69745, 69749), (69760, 69816), (69826, 69826), (69840, 69938), (69942, 69951), (69956, 70002),
  (70006, 70079), (70081, 70084), (70094, 70106), (70108, 70108), (70113, 70196), (70199, 70199),
  (70206, 70209), (70272, 70312), (70320, 70376), (70384, 70457), (70461, 70476), (70480, 70499),
  (70656, 70721), (70723, 70725), (70727, 70730), (70736, 70745), (70751, 70753), (70784, 70849),
  (70852, 70853), (70855, 70873), (71040, 71102), (71128, 71133), (71168, 71230), (71232, 71232),
  (71236, 71257), (71296, 71349), (71352, 71352), (71360, 71369), (71424, 71466), (71472, 71483),
  (71488, 71494), (71680, 71736), (71840, 71996), (71999, 72002), (72016, 72025), (72096, 72159),
  (72161, 72161), (72163, 72164), (72192, 72242), (72245, 72254), (72272, 72343), (72349, 72349),
  (72368, 72440), (72704, 72766), (72768, 72768), (72784, 72812), (72818, 72886), (72960, 73025),
  (73027, 73027), (73030, 73110), (73112, 73129), (73440, 73462), (73472, 73536), (73552, 73561),
  (73648, 73684), (73728, 74649), (74752, 74862), (74880, 75075), (77712, 77808), (77824, 78895),
  (78913, 78918), (82944, 83526), (92160, 92777), (92784, 92909), (92928, 92975), (92992, 92995),
  (93008, 93071), (93760, 93846), (93952, 94111), (94176, 94177), (94179, 94179), (94192, 101589),
  (101632, 101640), (110576, 110898), (110928, 111355), (113664, 113817), (113822, 113822),
  (119488, 119539), (119648, 119672), (119808, 120512), (120514, 120538), (120540, 120570),
  (120572, 120596), (120598, 120628), (120630, 120654), (120656, 120686), (120688, 120712),
  (120714, 120744), (120746, 120770), (120772, 120831), (122624, 122666), (122880, 122989),
  (123023, 123023), (123136, 123180), (123191, 123214), (123536, 123565), (123584, 123627),
  (123632, 123641), (124112, 124139), (124144, 124153), (124896, 125135), (125184, 125251),
  (125255, 125255), (125259, 125273), (126065, 126123), (126125, 126127), (126129, 126132),
  (126209, 126253), (126255, 126269), (126464, 126651), (127232, 127244), (127280, 127305),
  (127312, 127337), (127344, 127369), (130032, 130041), (131072, 173791), (173824, 191456),
  (194560, 195101), (196608, 205743)]

/-- Whether a character is a letter or a digit of any script. -/
def isLetterOrDigit (c : Char) : Bool :=
  if c.toNat < 128 then c.isAlphanum
  else letterRuns.any fun (first, last) => first ≤ c.toNat && c.toNat ≤ last

end ThreatModel.Text
