import MentalMath.Text.Extending

/-! The characters that do not take one column of a terminal. Some take none and do not join the one
before them: ignorable codes, signs that stand on or under the number after them, letters that are
written on the one after them, and the vowels and finals of decomposed Hangul syllables. Those of
East Asian scripts in their full width, and pictures, take two. Some letters are written as one sign
with others, and only some marks may stand between them. -/

namespace MentalMath.Text

/-- Codes of characters that take no column. -/
def invisible : CodeRanges :=
  [(173, 173), (1480, 1480), (1541, 1541), (1564, 1564), (1807, 1807), (2192, 2193), (2274, 2274),
   (2899, 2900), (3406, 3406), (4448, 4607), (6158, 6158), (6878, 6879), (6892, 6896), (8203, 8203),
   (8205, 8207), (8234, 8238), (8288, 8303), (12644, 12644), (43258, 43258), (55216, 55238),
   (55243, 55291), (65279, 65279), (65440, 65440), (65520, 65528), (70082, 70083), (70609, 70609),
   (71999, 71999), (72001, 72001), (72324, 72329), (73030, 73030), (73474, 73474), (113824, 113827),
   (119155, 119162), (119424, 119424), (917504, 917535), (917632, 917759), (918000, 921599)]

/-- Codes of characters that take two columns. -/
def wide : CodeRanges :=
  [(4352, 4447), (6052, 6052), (8986, 8987), (9001, 9002), (9193, 9196), (9200, 9200), (9203, 9203),
   (9725, 9726), (9748, 9749), (9776, 9783), (9800, 9811), (9855, 9855), (9866, 9871), (9875, 9875),
   (9889, 9889), (9898, 9899), (9917, 9918), (9924, 9925), (9934, 9934), (9940, 9940), (9962, 9962),
   (9970, 9971), (9973, 9973), (9978, 9978), (9981, 9981), (9989, 9989), (9994, 9995),
   (10024, 10024), (10060, 10060), (10062, 10062), (10067, 10069), (10071, 10071), (10133, 10135),
   (10160, 10160), (10175, 10175), (11035, 11036), (11088, 11088), (11093, 11093), (11904, 11929),
   (11931, 12019), (12032, 12245), (12272, 12329), (12336, 12350), (12353, 12438), (12443, 12543),
   (12549, 12591), (12593, 12643), (12645, 12686), (12688, 12773), (12783, 12830), (12832, 12871),
   (12880, 42124), (42128, 42182), (43360, 43388), (44032, 55203), (63744, 64255), (65040, 65049),
   (65072, 65106), (65108, 65126), (65128, 65131), (65281, 65376), (65504, 65510), (94176, 94179),
   (94194, 94198), (94208, 101589), (101631, 101662), (101760, 101874), (101888, 102879),
   (110576, 110579), (110581, 110587), (110589, 110590), (110592, 110882), (110898, 110898),
   (110928, 110930), (110933, 110933), (110948, 110951), (110960, 111355), (119552, 119638),
   (119648, 119670), (126980, 126980), (127183, 127183), (127374, 127374), (127377, 127386),
   (127488, 127490), (127504, 127547), (127552, 127560), (127568, 127569), (127584, 127589),
   (127744, 127776), (127789, 127797), (127799, 127868), (127870, 127891), (127904, 127946),
   (127951, 127955), (127968, 127984), (127988, 127988), (127992, 128062), (128064, 128064),
   (128066, 128252), (128255, 128317), (128331, 128334), (128336, 128359), (128378, 128378),
   (128405, 128406), (128420, 128420), (128507, 128591), (128640, 128709), (128716, 128716),
   (128720, 128722), (128725, 128729), (128732, 128735), (128747, 128748), (128756, 128764),
   (128992, 129003), (129008, 129008), (129292, 129338), (129340, 129349), (129351, 129535),
   (129648, 129660), (129664, 129734), (129736, 129736), (129740, 129757), (129759, 129771),
   (129775, 129786), (131072, 196605), (196608, 262141)]

/-- Codes of the letter lam of Arabic and its kin. -/
def lams : CodeRanges :=
  [(1604, 1604), (1717, 1720), (1898, 1898), (2214, 2214), (2247, 2247)]

/-- Codes of the letter alef of Arabic and its kin. -/
def alefs : CodeRanges :=
  [(1570, 1571), (1573, 1573), (1575, 1575), (1649, 1651), (1653, 1653), (1907, 1908), (2160, 2178)]

/-- Codes of characters without a column that keep a lam apart from the alef after them. -/
def partings : CodeRanges :=
  [(1541, 1541), (2192, 2193), (2274, 2274), (2494, 2494), (2519, 2519), (2878, 2878), (2903, 2903),
   (3006, 3006), (3031, 3031), (3264, 3264), (3266, 3266), (3271, 3272), (3274, 3275), (3285, 3286),
   (3390, 3390), (3406, 3406), (3415, 3415), (3535, 3535), (3551, 3551), (4448, 4607), (5909, 5909),
   (5940, 5940), (6158, 6158), (6965, 6965), (6971, 6971), (6973, 6973), (6979, 6980), (7082, 7082),
   (7154, 7155), (8204, 8205), (8293, 8297), (12334, 12335), (12644, 12644), (43258, 43258),
   (43347, 43347), (43456, 43456), (55216, 55238), (55243, 55291), (65440, 65440), (65520, 65528),
   (70080, 70080), (70082, 70083), (70197, 70197), (70462, 70462), (70477, 70477), (70487, 70487),
   (70584, 70584), (70594, 70594), (70597, 70597), (70599, 70601), (70607, 70607), (70609, 70609),
   (70832, 70832), (70845, 70845), (71087, 71087), (71350, 71350), (71984, 71984), (71997, 71997),
   (71999, 71999), (72001, 72001), (72324, 72329), (73030, 73030), (73474, 73474), (73537, 73537),
   (94192, 94193), (119141, 119142), (119149, 119154), (917504, 917504), (917506, 917535),
   (917632, 917759), (918000, 921599)]

/-- Codes of marks that change the form of a character and have none of their own. -/
def ignorableMarks : CodeRanges :=
  [(847, 847), (6068, 6069), (6155, 6157), (6159, 6159), (65024, 65039), (917760, 917999)]

/-- Codes of the consonants of Tifinagh. -/
def berberConsonants : CodeRanges :=
  [(11569, 11621), (11631, 11631)]

/-- Codes of the letters of Khmer that go under the letter before a coeng. -/
def subscriptLetters : CodeRanges :=
  [(6016, 6018), (6020, 6023), (6025, 6028), (6030, 6035), (6037, 6040), (6043, 6045), (6048, 6048),
   (6050, 6050), (6055, 6055), (6059, 6060), (6063, 6063)]

end MentalMath.Text
